import Mathlib.Algebra.Order.Ring.Int
import Mathlib.Data.List.AList
import ProxyForward.Runs
import ProxyForward.Slices

namespace ProxyForward.AuthLimit
set_option autoImplicit true
open Slices Runs

/-- `time.Minute`; times are nanoseconds on one clock. -/
def minute : Int := 60000000000

structure AuthLimiter where
  perMin : Int
  window : Int
  fails : AList fun _ : String => Slice
  /-- The backing arrays of the slices in `fails`. -/
  arrays : Heap Int

def newAuthLimiter (perMin : Int) : AuthLimiter := ⟨perMin, minute, ∅, []⟩

namespace AuthLimiter

/-- The attempts that `fails` holds for an IP. -/
def held (l : AuthLimiter) (ip : String) : List Int := l.arrays.readNil (l.fails.lookup ip)

/-- Drops entries older than the window and returns what remains. -/
def pruneLocked (l : AuthLimiter) (ip : String) (now : Int) : AuthLimiter × Option Slice :=
  let cutoff := now - l.window
  match l.fails.lookup ip with
  | none => (l, none)
  | some ts =>
    let (arrays, keep) := l.arrays.filterInPlace (fun t => cutoff < t) ts
    if keep.len = 0 then ({ l with arrays, fails := l.fails.erase ip }, none)
    else ({ l with arrays, fails := l.fails.insert ip keep }, some keep)

def sliceLen : Option Slice → Int
  | none => 0
  | some s => s.len

def allow (l : AuthLimiter) (ip : String) (now : Int) : Bool × AuthLimiter :=
  let (l', ts) := l.pruneLocked ip now
  (sliceLen ts < l.perMin, l')

/-- What the sweep does at one key of the map. -/
def sweepKey (l : AuthLimiter) (k : String) (now : Int) : AuthLimiter :=
  let (l', ts) := l.pruneLocked k now
  if sliceLen ts = 0 then { l' with fails := l'.fails.erase k } else l'

/-- The sweep over a map in the order in which it hands out its keys. -/
def sweep (l : AuthLimiter) : List (String × Int) → AuthLimiter
  | [] => l
  | (k, now) :: visits => (l.sweepKey k now).sweep visits

def maxTracked : Nat := 4096

/-- `fail` up to the sweep: `now` is read for the cutoff and `stamp` for the entry. -/
def record (spare : List Int → List Int) (l : AuthLimiter) (ip : String) (now stamp : Int) :
    AuthLimiter :=
  let (l', ts) := l.pruneLocked ip now
  let (arrays, ts) := l'.arrays.append spare ts stamp
  { l' with arrays, fails := l'.fails.insert ip ts }

def fail (spare : List Int → List Int) (l : AuthLimiter) (ip : String) (now stamp : Int)
    (visits : List (String × Int)) : AuthLimiter :=
  let l' := l.record spare ip now stamp
  if maxTracked < l'.fails.keys.length then l'.sweep visits else l'

end AuthLimiter

/-- A call with its readings of the clock; `visits` is the order in which the map hands out its keys
to the sweep, with the reading at each. -/
inductive Call where
  | allow (ip : String) (now : Int)
  | fail (ip : String) (now stamp : Int) (visits : List (String × Int))
  deriving DecidableEq, Repr

def Call.readings : Call → List Int
  | .allow _ now => [now]
  | .fail _ now stamp visits => now :: stamp :: visits.map Prod.snd

/-- The visits that a range over the map can make. -/
def Swept (l : AuthLimiter) (visits : List (String × Int)) : Prop :=
  if AuthLimiter.maxTracked < l.fails.keys.length then
    (visits.map Prod.fst).Perm l.fails.keys
  else visits = []

instance (l : AuthLimiter) (visits : List (String × Int)) : Decidable (Swept l visits) :=
  inferInstanceAs (Decidable (ite _ _ _))

def step (spare : List Int → List Int) (l : AuthLimiter) : Call → Option AuthLimiter
  | .allow ip now => some (l.allow ip now).2
  | .fail ip now stamp visits =>
    if Swept (l.record spare ip now stamp) visits then
      some (l.fail spare ip now stamp visits)
    else none

/-- When the failures of an IP were recorded. -/
def failuresOf (ip : String) (cs : List Call) : List Int :=
  cs.filterMap fun
    | .fail jp _ stamp _ => if jp = ip then some stamp else none
    | .allow _ _ => none

namespace AuthLimiter

/-- Every slice lies in its array, and no two IPs share one. -/
structure Owned (l : AuthLimiter) : Prop where
  fits : ∀ ip s, l.fails.lookup ip = some s → l.arrays.Fits s
  apart : ∀ ip jp s t, l.fails.lookup ip = some s → l.fails.lookup jp = some t →
    ip ≠ jp → s.array ≠ t.array

theorem owned_new (perMin : Int) : (newAuthLimiter perMin).Owned := ⟨nofun, nofun⟩

theorem held_lookup {l : AuthLimiter} (h : l.fails.lookup ip = some s) :
    l.held ip = l.arrays.read s := by
  rw [held, h]
  rfl

theorem held_none {l : AuthLimiter} (h : l.fails.lookup ip = none) : l.held ip = [] := by
  rw [held, h]
  rfl

theorem held_congr {l l' : AuthLimiter} (hl : l'.fails.lookup ip = l.fails.lookup ip)
    (hc : ∀ s, l.fails.lookup ip = some s → l'.arrays.cells s.array = l.arrays.cells s.array) :
    l'.held ip = l.held ip := by
  cases h : l.fails.lookup ip with
  | none => rw [held_none h, held_none (hl.trans h)]
  | some s => rw [held_lookup h, held_lookup (hl.trans h), Heap.read_congr (hc s h)]

theorem Owned.put {l l' : AuthLimiter} (ho : l.Owned)
    (hlen : l.arrays.length ≤ l'.arrays.length)
    (hother : ∀ jp, jp ≠ ip → l'.fails.lookup jp = l.fails.lookup jp)
    (hcells : ∀ jp s, jp ≠ ip → l.fails.lookup jp = some s →
      l'.arrays.cells s.array = l.arrays.cells s.array)
    (hself : ∀ s, l'.fails.lookup ip = some s → l'.arrays.Fits s ∧
      ∀ jp t, jp ≠ ip → l.fails.lookup jp = some t → s.array ≠ t.array) : l'.Owned := by
  constructor
  · intro jp s hs
    by_cases hj : jp = ip
    · subst hj
      exact (hself s hs).1
    · rw [hother jp hj] at hs
      exact (ho.fits jp s hs).congr hlen (hcells jp s hj hs)
  · intro jp kp s t hs ht hne
    by_cases hj : jp = ip
    · subst hj
      rw [hother kp (Ne.symm hne)] at ht
      exact (hself s hs).2 kp t (Ne.symm hne) ht
    · rw [hother jp hj] at hs
      by_cases hk : kp = ip
      · subst hk
        exact ((hself t ht).2 jp s hj hs).symm
      · rw [hother kp hk] at ht
        exact ho.apart jp kp s t hs ht hne

/-- What pruning an IP does to the limiter and returns. -/
structure Pruned (l : AuthLimiter) (ip : String) (now : Int) (r : AuthLimiter × Option Slice) :
    Prop where
  owned : r.1.Owned
  result : r.2 = r.1.fails.lookup ip
  held : r.1.held ip = (l.held ip).filter (fun t => now - l.window < t)
  other : ∀ jp, jp ≠ ip → r.1.held jp = l.held jp
  perMin : r.1.perMin = l.perMin
  window : r.1.window = l.window

theorem Owned.pruneLocked {l : AuthLimiter} (ho : l.Owned) (ip : String) (now : Int) :
    Pruned l ip now (l.pruneLocked ip now) := by
  unfold AuthLimiter.pruneLocked
  cases hs : l.fails.lookup ip with
  | none =>
    refine ⟨ho, hs.symm, ?_, fun _ _ => rfl, rfl, rfl⟩
    rw [held_none hs]
    rfl
  | some ts =>
    have hf := ho.fits ip ts hs
    let p : Int → Bool := fun t => now - l.window < t
    have hcells : ∀ jp s, jp ≠ ip → l.fails.lookup jp = some s →
        (l.arrays.filterInPlace p ts).1.cells s.array = l.arrays.cells s.array := by
      intro jp s hj hl
      exact Heap.cells_filterInPlace hf p (ho.apart jp ip s ts hl hs hj)
    have hlen := Nat.le_of_eq (Heap.length_filterInPlace l.arrays p ts).symm
    have hread := Heap.read_filterInPlace hf p
    rw [← held_lookup hs] at hread
    by_cases h0 : (l.arrays.filterInPlace p ts).2.len = 0
    · have hgone : (l.fails.erase ip).lookup ip = none := AList.lookup_erase _ _
      have hother : ∀ jp, jp ≠ ip → (l.fails.erase ip).lookup jp = l.fails.lookup jp :=
        fun jp hj => AList.lookup_erase_ne hj
      simp only [p] at h0
      simp only [h0, if_pos]
      refine ⟨ho.put hlen hother hcells ?_, hgone.symm, ?_, ?_, rfl, rfl⟩
      · intro s h
        exact absurd (hgone.symm.trans h) nofun
      · rw [held_none hgone, ← hread, Heap.read, h0, List.take_zero]
      · intro jp hj
        exact held_congr (hother jp hj) (fun s => hcells jp s hj)
    · have hself : (l.fails.insert ip (l.arrays.filterInPlace p ts).2).lookup ip =
          some (l.arrays.filterInPlace p ts).2 := AList.lookup_insert _
      have hother : ∀ jp, jp ≠ ip →
          (l.fails.insert ip (l.arrays.filterInPlace p ts).2).lookup jp = l.fails.lookup jp :=
        fun jp hj => AList.lookup_insert_ne hj
      simp only [p] at h0
      simp only [h0, if_false]
      refine ⟨ho.put hlen hother hcells ?_, hself.symm, ?_, ?_, rfl, rfl⟩
      · intro s h
        cases hself.symm.trans h
        exact ⟨Heap.filterInPlace_fits hf p, fun jp t hj ht =>
          (ho.apart jp ip t ts ht hs hj).symm⟩
      · rw [held_lookup hself]
        exact hread
      · intro jp hj
        exact held_congr (hother jp hj) (fun s => hcells jp s hj)

theorem sliceLen_lookup {l : AuthLimiter} (ho : l.Owned) (ip : String) :
    sliceLen (l.fails.lookup ip) = (l.held ip).length := by
  cases h : l.fails.lookup ip with
  | none => rw [held_none h]; rfl
  | some s =>
    rw [held_lookup h, Heap.read, List.length_take_of_le (ho.fits ip s h).2]
    rfl

theorem allow_fst {l : AuthLimiter} (ho : l.Owned) :
    (l.allow ip now).1 = true ↔
      (((l.held ip).filter (fun t => now - l.window < t)).length : Int) < l.perMin := by
  have hp := ho.pruneLocked ip now
  unfold allow
  simp only [decide_eq_true_eq]
  rw [hp.result, sliceLen_lookup hp.owned, hp.held]

theorem pruneLocked_nonempty (l : AuthLimiter) (h : (l.pruneLocked ip now).2 = some s) :
    s.len ≠ 0 := by
  unfold pruneLocked at h
  cases hs : l.fails.lookup ip with
  | none =>
    simp only [hs] at h
    cases h
  | some ts =>
    simp only [hs] at h
    split at h
    · cases h
    · rename_i h0
      cases h
      exact h0

theorem erase_of_lookup_none {m : AList fun _ : String => Slice} (h : m.lookup k = none) :
    m.erase k = m := by
  have hnot : k ∉ m.keys := fun hk => AList.lookup_eq_none.1 h (AList.mem_keys.2 hk)
  apply AList.ext
  exact List.kerase_of_notMem_keys hnot

theorem Owned.sweepKey {l : AuthLimiter} (ho : l.Owned) (k : String) (now : Int) :
    l.sweepKey k now = (l.pruneLocked k now).1 := by
  have hres := (ho.pruneLocked k now).result
  have hne : ∀ s, (l.pruneLocked k now).2 = some s → s.len ≠ 0 :=
    fun s => l.pruneLocked_nonempty
  unfold AuthLimiter.sweepKey
  generalize l.pruneLocked k now = r at hres hne
  obtain ⟨m, ts⟩ := r
  simp only at hres hne ⊢
  cases ts with
  | none =>
    rw [erase_of_lookup_none hres.symm]
    exact ite_self m
  | some s =>
    have h0 : sliceLen (some s) ≠ 0 := fun h => hne s rfl (Int.natCast_eq_zero.1 h)
    rw [if_neg h0]

/-- An entry that is younger than every cutoff taken is neither lost nor moved. -/
structure Since (c : Int) (l l' : AuthLimiter) : Prop where
  owned : l'.Owned
  held : ∀ ip, (l'.held ip).filter (fun t => c < t) = (l.held ip).filter (fun t => c < t)
  perMin : l'.perMin = l.perMin
  window : l'.window = l.window

theorem Since.refl {l : AuthLimiter} (ho : l.Owned) (c : Int) : Since c l l :=
  ⟨ho, fun _ => rfl, rfl, rfl⟩

theorem Since.trans {l l' l'' : AuthLimiter} (h : Since c l l') (h' : Since c l' l'') :
    Since c l l'' :=
  ⟨h'.owned, fun ip => (h'.held ip).trans (h.held ip), h'.perMin.trans h.perMin,
    h'.window.trans h.window⟩

theorem filter_filter_lt {c d : Int} (h : d ≤ c) (ts : List Int) :
    (ts.filter (fun t => d < t)).filter (fun t => c < t) = ts.filter (fun t => c < t) := by
  rw [List.filter_filter]
  apply List.filter_congr
  intro t _
  by_cases ht : c < t
  · simp only [ht, lt_of_le_of_lt h ht, decide_true, Bool.and_self]
  · simp only [ht, decide_false, Bool.false_and]

theorem Pruned.since {l : AuthLimiter} (hp : Pruned l ip now r) (hc : now - l.window ≤ c) :
    Since c l r.1 := by
  refine ⟨hp.owned, ?_, hp.perMin, hp.window⟩
  intro jp
  by_cases hj : jp = ip
  · subst hj
    rw [hp.held, filter_filter_lt hc]
  · rw [hp.other jp hj]

theorem Owned.sweep_since {l : AuthLimiter} (ho : l.Owned)
    (hc : ∀ v ∈ visits, v.2 - l.window ≤ c) : Since c l (l.sweep visits) := by
  induction visits generalizing l with
  | nil => exact Since.refl ho c
  | cons v visits ih =>
    obtain ⟨k, now⟩ := v
    have hp := ho.pruneLocked k now
    have hs : Since c l (l.sweepKey k now) := by
      rw [ho.sweepKey]
      exact hp.since (hc _ List.mem_cons_self)
    refine hs.trans (ih hs.owned ?_)
    intro v hv
    rw [hs.window]
    exact hc v (List.mem_cons_of_mem _ hv)

theorem Owned.record {l : AuthLimiter} (ho : l.Owned) (spare : List Int → List Int)
    (ip : String) (stamp : Int) (hc : now - l.window ≤ c) :
    (l.record spare ip now stamp).Owned ∧
      (∀ jp, ((l.record spare ip now stamp).held jp).filter (fun t => c < t) =
        (l.held jp ++ if ip = jp then [stamp] else []).filter (fun t => c < t)) ∧
      (l.record spare ip now stamp).perMin = l.perMin ∧
      (l.record spare ip now stamp).window = l.window := by
  have hp := ho.pruneLocked ip now
  have hsince := hp.since hc
  have hres := hp.result
  unfold AuthLimiter.record
  generalize l.pruneLocked ip now = r at hp hsince hres
  obtain ⟨m, ts⟩ := r
  simp only at hp hsince hres ⊢
  have hf : ∀ t ∈ ts, m.arrays.Fits t := by
    intro t ht
    exact hp.owned.fits ip t (hres.symm.trans ht)
  have hself : (m.fails.insert ip (m.arrays.append spare ts stamp).2).lookup ip =
      some (m.arrays.append spare ts stamp).2 := AList.lookup_insert _
  have hother : ∀ jp, jp ≠ ip →
      (m.fails.insert ip (m.arrays.append spare ts stamp).2).lookup jp = m.fails.lookup jp :=
    fun jp hj => AList.lookup_insert_ne hj
  -- The array written to is this IP's own or a new one.
  have hapart : ∀ jp t, jp ≠ ip → m.fails.lookup jp = some t →
      (m.arrays.append spare ts stamp).2.array ≠ t.array := by
    intro jp t hj ht
    obtain ⟨s, hs, he⟩ | he := Heap.append_array (h := m.arrays) (s := ts) spare stamp
    · rw [he]
      exact hp.owned.apart ip jp s t (hres.symm.trans hs) ht (Ne.symm hj)
    · rw [he]
      exact (hp.owned.fits jp t ht).1.ne'
  have hcells : ∀ jp t, jp ≠ ip → m.fails.lookup jp = some t →
      (m.arrays.append spare ts stamp).1.cells t.array = m.arrays.cells t.array := by
    intro jp t hj ht
    exact Heap.cells_append hf spare stamp (hp.owned.fits jp t ht).1 (hapart jp t hj ht).symm
  refine ⟨hp.owned.put (Heap.length_append spare stamp) hother hcells ?_, ?_, hp.perMin, hp.window⟩
  · intro s h
    cases hself.symm.trans h
    exact ⟨Heap.append_fits hf spare stamp, hapart⟩
  · intro jp
    by_cases hj : jp = ip
    · subst hj
      have hread := Heap.read_append hf spare stamp
      have hheld : m.arrays.readNil ts = m.held jp := by
        rw [AuthLimiter.held, ← hres]
      rw [held_lookup hself, hread, hheld, if_pos rfl, List.filter_append, List.filter_append,
        hsince.held jp]
    · rw [held_congr (hother jp hj) (fun t => hcells jp t hj), hsince.held jp,
        if_neg (Ne.symm hj), List.append_nil]

end AuthLimiter

theorem step_held {l : AuthLimiter} (ho : l.Owned) (hs : step spare l call = some l')
    (hc : ∀ t ∈ call.readings, t - l.window ≤ c) :
    l'.Owned ∧ l'.perMin = l.perMin ∧ l'.window = l.window ∧
      ∀ ip, (l'.held ip).filter (fun t => c < t) =
        (l.held ip ++ failuresOf ip [call]).filter (fun t => c < t) := by
  cases call with
  | allow jp now =>
    cases hs
    have h := (ho.pruneLocked jp now).since (hc now List.mem_cons_self)
    refine ⟨h.owned, h.perMin, h.window, ?_⟩
    intro ip
    rw [show failuresOf ip [.allow jp now] = [] from rfl, List.append_nil]
    exact h.held ip
  | fail jp now stamp visits =>
    obtain ⟨hr, hheld, hper, hwin⟩ := ho.record spare jp stamp (hc now List.mem_cons_self)
    have hsince : AuthLimiter.Since c (l.record spare jp now stamp)
        (l.fail spare jp now stamp visits) := by
      unfold AuthLimiter.fail
      simp only
      split
      · apply hr.sweep_since
        intro v hv
        rw [hwin]
        exact hc v.2 (List.mem_cons_of_mem _ (List.mem_cons_of_mem _ (List.mem_map_of_mem hv)))
      · exact AuthLimiter.Since.refl hr c
    unfold step at hs
    simp only at hs
    split at hs
    · cases hs
      refine ⟨hsince.owned, hsince.perMin.trans hper, hsince.window.trans hwin, ?_⟩
      intro ip
      rw [hsince.held ip, hheld ip]
      by_cases hj : jp = ip
      · simp only [failuresOf, List.filterMap_cons, List.filterMap_nil, hj, if_pos]
      · simp only [failuresOf, List.filterMap_cons, List.filterMap_nil, hj, if_false]
    · cases hs

theorem failuresOf_cons (ip : String) (call : Call) (cs : List Call) :
    failuresOf ip (call :: cs) = failuresOf ip [call] ++ failuresOf ip cs := by
  unfold failuresOf
  rw [← List.filterMap_append, List.singleton_append]

theorem run_held (hr : Reaches (step spare) l cs l') (ho : l.Owned)
    (hc : ∀ call ∈ cs, ∀ t ∈ call.readings, t - l.window ≤ c) :
    l'.Owned ∧ l'.perMin = l.perMin ∧ l'.window = l.window ∧
      ∀ ip, (l'.held ip).filter (fun t => c < t) =
        (l.held ip ++ failuresOf ip cs).filter (fun t => c < t) := by
  induction hr with
  | nil l =>
    refine ⟨ho, rfl, rfl, ?_⟩
    intro ip
    rw [show failuresOf ip [] = [] from rfl, List.append_nil]
  | cons hs hr ih =>
    obtain ⟨ho', hp, hw, hheld⟩ := step_held ho hs (hc _ List.mem_cons_self)
    obtain ⟨ho'', hp', hw', hheld'⟩ := ih ho' (by
      intro call hcall
      rw [hw]
      exact hc call (List.mem_cons_of_mem _ hcall))
    refine ⟨ho'', hp'.trans hp, hw'.trans hw, ?_⟩
    intro ip
    rw [hheld' ip, failuresOf_cons, List.filter_append, hheld ip, List.filter_append,
      List.filter_append, List.filter_append, List.append_assoc]

/-- The limiter is a sliding window: after any calls in the order of their readings, an IP is let
through exactly when fewer than `perMin` of its failures are younger than a minute. -/
theorem allow_iff_recent_failures {cs : List Call}
    (hr : Reaches (step spare) (newAuthLimiter perMin) cs l)
    (hs : ((cs ++ [Call.allow ip now]).flatMap Call.readings).Pairwise (· ≤ ·)) :
    (l.allow ip now).1 = true ↔
      (((failuresOf ip cs).filter (fun t => now - minute < t)).length : Int) < perMin := by
  rw [List.flatMap_append, List.pairwise_append] at hs
  have hle : ∀ call ∈ cs, ∀ t ∈ call.readings, t ≤ now := by
    intro call hcall t ht
    exact hs.2.2 t (List.mem_flatMap_of_mem hcall ht) now List.mem_cons_self
  obtain ⟨ho, hp, hw, hheld⟩ := run_held (c := now - minute) hr (AuthLimiter.owned_new perMin) (by
    intro call hcall t ht
    exact Int.sub_le_sub_right (hle call hcall t ht) minute)
  rw [AuthLimiter.allow_fst ho, hp, hw]
  have h := hheld ip
  rw [show (newAuthLimiter perMin).held ip = [] from rfl, List.nil_append] at h
  rw [show (newAuthLimiter perMin).window = minute from rfl, h]
  rfl

/-- Two failures, the older exactly a minute before: one counts, and the IP has one attempt. -/
theorem allow_at_edge_of_window :
    ∃ l, Reaches (step fun xs => xs) (newAuthLimiter 2)
        [.fail "a" 0 0 [], .fail "b" 1 1 [], .fail "a" 5 5 []] l ∧
      (l.allow "a" minute).1 = true :=
  have hr := reaches_of_final (t := (step (fun xs => xs)
      (((newAuthLimiter 2).fail (fun xs => xs) "a" 0 0 []).fail (fun xs => xs) "b" 1 1 [])
      (.fail "a" 5 5 [])).get (by decide)) (by rfl)
  ⟨_, hr, (allow_iff_recent_failures hr (by decide)).2 (by decide)⟩

end ProxyForward.AuthLimit

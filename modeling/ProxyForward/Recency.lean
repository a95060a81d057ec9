import Mathlib.Data.Finset.Card
import Mathlib.Data.List.Nodup
import Mathlib.Data.List.Perm.Basic

namespace Recency
set_option autoImplicit true

variable {K : Type} [DecidableEq K]

/-- The time of the last use of a key, in a log that has the newest first. -/
def lastUse (log : List (K × Int)) (k : K) : Option Int :=
  (log.find? fun e => e.1 = k).map Prod.snd

/-- The keys of a log. -/
def keys (log : List (K × Int)) : Finset K := (log.map Prod.fst).toFinset

/-- The other keys that were used at that time or at a later one. -/
def since (log : List (K × Int)) (k : K) (t : Int) : Finset K :=
  keys (log.filter fun e => e.1 ≠ k ∧ t ≤ e.2)

/-- If the key was used at all, then it had to make way in a table of `n`: there are more keys than
that, and the others in the table were used as late as it. -/
def Crowded (n : Nat) (log : List (K × Int)) (k : K) : Prop :=
  ∀ t, lastUse log k = some t → n < (keys log).card ∧ n ≤ (since log k t).card + 1

/-- A table of `n` keys with their last uses that gives up the ones used longest ago. -/
structure Holds (n : Nat) (log held : List (K × Int)) : Prop where
  nodup : (held.map Prod.fst).Nodup
  length : held.length ≤ n
  last : ∀ e ∈ held, lastUse log e.1 = some e.2
  crowded : ∀ k, k ∉ held.map Prod.fst → Crowded n log k

theorem lastUse_cons_self (log : List (K × Int)) (k : K) (t : Int) :
    lastUse ((k, t) :: log) k = some t := by
  rw [lastUse, List.find?_cons_of_pos (by simp), Option.map_some]

theorem lastUse_cons_ne (log : List (K × Int)) {k x : K} (hne : k ≠ x) (t : Int) :
    lastUse ((k, t) :: log) x = lastUse log x := by
  rw [lastUse, List.find?_cons_of_neg (by simpa using hne), lastUse]

theorem lastUse_eq_none {log : List (K × Int)} {k : K} : lastUse log k = none ↔ k ∉ keys log := by
  rw [lastUse, Option.map_eq_none_iff, List.find?_eq_none, keys, List.mem_toFinset, List.mem_map]
  constructor
  · rintro h ⟨e, he, rfl⟩
    exact h e he (by simp)
  · intro h e he hk
    exact h ⟨e, he, by simpa using hk⟩

theorem keys_cons (e : K × Int) (log : List (K × Int)) :
    keys (e :: log) = insert e.1 (keys log) := by
  rw [keys, List.map_cons, List.toFinset_cons, keys]

theorem mem_keys_of_lastUse {log : List (K × Int)} (h : lastUse log k = some t) : k ∈ keys log := by
  by_contra hk
  rw [lastUse_eq_none.2 hk] at h
  cases h

theorem since_mono {log log' : List (K × Int)} (h : log ⊆ log') (k : K) (t : Int) :
    since log k t ⊆ since log' k t := by
  intro x hx
  simp only [since, keys, List.mem_toFinset, List.mem_map, List.mem_filter] at hx ⊢
  obtain ⟨e, ⟨he, hcond⟩, rfl⟩ := hx
  exact ⟨e, ⟨h he, hcond⟩, rfl⟩

theorem mem_since {log : List (K × Int)} {k x : K} (hlast : lastUse log x = some t) (hne : x ≠ k)
    (hle : t₀ ≤ t) : x ∈ since log k t₀ := by
  rw [lastUse, Option.map_eq_some_iff] at hlast
  obtain ⟨e, hfind, rfl⟩ := hlast
  have hx : e.1 = x := by simpa using List.find?_some hfind
  simp only [since, keys, List.mem_toFinset, List.mem_map, List.mem_filter]
  exact ⟨e, ⟨List.mem_of_find?_eq_some hfind, by simpa using ⟨hx ▸ hne, hle⟩⟩, hx⟩

/-- A key that had to make way stays crowded out while others are used. -/
theorem Crowded.cons {log : List (K × Int)} {k x : K} (h : Crowded n log x) (hne : k ≠ x)
    (t : Int) : Crowded n ((k, t) :: log) x := by
  intro t₀ hlast
  rw [lastUse_cons_ne log hne] at hlast
  obtain ⟨hmany, hothers⟩ := h t₀ hlast
  constructor
  · exact lt_of_lt_of_le hmany
      (Finset.card_le_card (keys_cons (k, t) log ▸ Finset.subset_insert _ _))
  · have hsub := Finset.card_le_card (since_mono (List.subset_cons_self (k, t) log) x t₀)
    omega

theorem crowded_of_unused {log : List (K × Int)} {k : K} (h : lastUse log k = none) :
    Crowded n log k := by
  intro t hlast
  rw [h] at hlast
  cases hlast

theorem Holds.nil (n : Nat) : Holds n ([] : List (K × Int)) [] where
  nodup := List.nodup_nil
  length := Nat.zero_le n
  last := nofun
  crowded := fun _ _ => crowded_of_unused rfl

theorem Holds.perm {log held held' : List (K × Int)} (h : Holds n log held)
    (hp : held.Perm held') : Holds n log held' where
  nodup := (hp.map Prod.fst).nodup_iff.1 h.nodup
  length := hp.length_eq ▸ h.length
  last := fun e he => h.last e (hp.mem_iff.2 he)
  crowded := fun k hk => h.crowded k fun hin => hk ((hp.map Prod.fst).mem_iff.1 hin)

/-- A key of the table is used. -/
theorem Holds.hit {log held : List (K × Int)} {k : K} (h : Holds n log held)
    (hk : k ∈ held.map Prod.fst) (t : Int) :
    Holds n ((k, t) :: log) (held.map fun e => if e.1 = k then (k, t) else e) := by
  have hkeys : (held.map fun e => if e.1 = k then (k, t) else e).map Prod.fst =
      held.map Prod.fst := by
    rw [List.map_map]
    refine List.map_congr_left fun e he => ?_
    rw [Function.comp_apply]
    split
    · rename_i heq
      exact heq.symm
    · rfl
  refine ⟨hkeys ▸ h.nodup, by rw [List.length_map]; exact h.length, fun e he => ?_,
    fun x hx => ?_⟩
  · obtain ⟨e₀, he₀, rfl⟩ := List.mem_map.1 he
    split
    · exact lastUse_cons_self log k t
    · rename_i hne
      rw [lastUse_cons_ne log (Ne.symm hne)]
      exact h.last e₀ he₀
  · rw [hkeys] at hx
    exact (h.crowded x hx).cons (fun heq => hx (heq ▸ hk)) t

/-- A key that is not in the table is used, and there is room. -/
theorem Holds.add {log held : List (K × Int)} {k : K} (h : Holds n log held)
    (hk : k ∉ held.map Prod.fst) (hroom : held.length < n) (t : Int) :
    Holds n ((k, t) :: log) (held ++ [(k, t)]) := by
  refine ⟨?_, ?_, fun e he => ?_, fun x hx => ?_⟩
  · rw [List.map_append, List.map_singleton]
    exact List.Nodup.append h.nodup (List.nodup_singleton _) (by simpa using hk)
  · rw [List.length_append, List.length_singleton]
    exact hroom
  · obtain hold | hnew := List.mem_append.1 he
    · have hne : k ≠ e.1 := fun heq => hk (heq ▸ List.mem_map_of_mem hold)
      rw [lastUse_cons_ne log hne]
      exact h.last e hold
    · rw [List.mem_singleton.1 hnew]
      exact lastUse_cons_self log k t
  · rw [List.map_append, List.mem_append, not_or] at hx
    exact (h.crowded x hx.1).cons (fun heq => hx.2 (by simp [heq])) t

/-- The one used longest ago makes way. -/
theorem Holds.evict {log held : List (K × Int)} {k : K} {v : K × Int} (h : Holds n log held)
    (hk : k ∉ held.map Prod.fst) (hfull : held.length = n) (hv : v ∈ held)
    (hold : ∀ e ∈ held, v.2 ≤ e.2) (t : Int) :
    Holds n ((k, t) :: log) (held.filter (fun e => e.1 ≠ v.1) ++ [(k, t)]) := by
  have hsub : (held.filter fun e => e.1 ≠ v.1).Sublist held := List.filter_sublist
  have hlen : (held.filter fun e => e.1 ≠ v.1).length < held.length := by
    refine List.length_filter_lt_length_iff_exists.2 ⟨v, hv, by simp⟩
  have hkept : ∀ e ∈ held.filter (fun e => e.1 ≠ v.1), e ∈ held ∧ e.1 ≠ v.1 := by
    intro e he
    exact ⟨List.mem_of_mem_filter he, by simpa using List.of_mem_filter he⟩
  have hcard : (held.map Prod.fst).toFinset.card = n := by
    rw [List.toFinset_card_of_nodup h.nodup, List.length_map, hfull]
  refine ⟨?_, ?_, fun e he => ?_, fun x hx => ?_⟩
  · rw [List.map_append, List.map_singleton]
    refine List.Nodup.append ((hsub.map Prod.fst).nodup h.nodup) (List.nodup_singleton _) ?_
    simp only [List.disjoint_singleton]
    exact fun hmem => hk ((hsub.map Prod.fst).subset hmem)
  · rw [List.length_append, List.length_singleton, ← hfull]
    exact hlen
  · obtain hmem | hnew := List.mem_append.1 he
    · have hne : k ≠ e.1 := fun heq => hk (heq ▸ List.mem_map_of_mem (hkept e hmem).1)
      rw [lastUse_cons_ne log hne]
      exact h.last e (hkept e hmem).1
    · rw [List.mem_singleton.1 hnew]
      exact lastUse_cons_self log k t
  · rw [List.map_append, List.mem_append, not_or] at hx
    have hkx : k ≠ x := fun heq => hx.2 (by simp [heq])
    by_cases hxv : x = v.1
    · intro t₀ hlast
      rw [lastUse_cons_ne log hkx, hxv, h.last v hv, Option.some_inj] at hlast
      subst hlast hxv
      constructor
      · have hsubset : insert k (held.map Prod.fst).toFinset ⊆ keys ((k, t) :: log) := by
          rw [keys_cons]
          refine Finset.insert_subset_insert k fun x hx => ?_
          obtain ⟨e, he, rfl⟩ := List.mem_map.1 (List.mem_toFinset.1 hx)
          exact mem_keys_of_lastUse (h.last e he)
        have hle := Finset.card_le_card hsubset
        rw [Finset.card_insert_of_notMem fun hmem => hk (List.mem_toFinset.1 hmem), hcard] at hle
        exact hle
      · have hsubset : (held.map Prod.fst).toFinset.erase v.1 ⊆ since ((k, t) :: log) v.1 v.2 := by
          intro x hx
          obtain ⟨hne, hmem⟩ := Finset.mem_erase.1 hx
          obtain ⟨e, he, rfl⟩ := List.mem_map.1 (List.mem_toFinset.1 hmem)
          exact since_mono (List.subset_cons_self _ _) _ _ (mem_since (h.last e he) hne (hold e he))
        have hle := Finset.card_le_card hsubset
        rw [Finset.card_erase_of_mem (List.mem_toFinset.2 (List.mem_map_of_mem hv)), hcard] at hle
        omega
    · refine (h.crowded x fun hmem => hx.1 ?_).cons hkx t
      obtain ⟨e, he, rfl⟩ := List.mem_map.1 hmem
      exact List.mem_map_of_mem (List.mem_filter.2 ⟨he, by simpa using hxv⟩)

end Recency

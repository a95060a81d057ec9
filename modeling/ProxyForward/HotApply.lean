import ProxyForward.ControlSession

namespace ProxyForward
set_option autoImplicit true

/-- The wire specs of the enabled tunnels, by id. -/
def registrations (tunnels : List Tunnel) (id : String) : Option TunnelSpec :=
  ((enabledByID tunnels).lookup id).map specFromTunnel

/-- What a frame makes of the registrations of a session. -/
def AgentFrame.request (regs : String → Option TunnelSpec) : AgentFrame → String → Option TunnelSpec
  | .register spec => Function.update regs spec.id (some spec)
  | .unregister tunnelID => Function.update regs tunnelID none
  | _ => regs

/-- An enabled tunnel of the old list that the new one has not. -/
def Gone (old new : List Tunnel) (id : String) : Prop :=
  id ∈ (enabledByID old).keys ∧ id ∉ (enabledByID new).keys

/-- An enabled tunnel of the new list that is new or changed. -/
def Due (old new : List Tunnel) (t : Tunnel) : Prop :=
  (enabledByID new).lookup t.id = some t ∧
    ∀ t₀, (enabledByID old).lookup t.id = some t₀ → tunnelChanged t₀ t = true

/-- The frames transform the registrations of the old list to those of the new one, with one
unregister for each tunnel that is gone and one register for each that is new or changed. -/
structure Transforms (old new : List Tunnel) (frames : List AgentFrame) : Prop where
  unregisters : ∀ id, Gone old new id → frames.count (.unregister id) = 1
  gone : ∀ id, .unregister id ∈ frames → Gone old new id
  registers : ∀ t, Due old new t → frames.count (.register (specFromTunnel t)) = 1
  due : ∀ spec, .register spec ∈ frames → ∃ t, Due old new t ∧ specFromTunnel t = spec
  result : frames.foldl AgentFrame.request (registrations old) = registrations new

/-- No enabled tunnel is gone, new or changed. -/
def SameTunnels (old new : List Tunnel) : Prop :=
  (∀ id, ¬Gone old new id) ∧ ∀ t, ¬Due old new t

variable {id : String} {tunnels old new : List Tunnel} {t : Tunnel}

theorem lookup_enabledByID_id (h : (enabledByID tunnels).lookup id = some t) : t.id = id :=
  (lookup_byID_mem h).2

theorem specFromTunnel_of_unchanged (hid : a.id = b.id) (h : tunnelChanged a b = false) :
    specFromTunnel a = specFromTunnel b := by
  simp only [tunnelChanged, Bool.or_eq_false_iff, decide_eq_false_iff_not, not_not] at h
  obtain ⟨⟨⟨⟨hname, htype⟩, -⟩, hport⟩, hopts⟩ := h
  simp only [specFromTunnel, hid, hname, htype, hport, hopts]

theorem tunnelChanged_self (t : Tunnel) : tunnelChanged t t = false := by
  simp only [tunnelChanged, ne_eq, not_true_eq_false, decide_false, Bool.or_self]

theorem sameTunnels_self (tunnels : List Tunnel) : SameTunnels tunnels tunnels :=
  ⟨fun _ h => h.2 h.1,
    fun t h => Bool.false_ne_true ((tunnelChanged_self t).symm.trans (h.2 t h.1))⟩

theorem registered_of_not_due (ht : (enabledByID new).lookup id = some t) (hdue : ¬Due old new t) :
    registrations old id = some (specFromTunnel t) := by
  obtain rfl := lookup_enabledByID_id ht
  simp only [Due, ht, true_and, not_forall, Bool.not_eq_true] at hdue
  obtain ⟨t₀, ht₀, hsame⟩ := hdue
  rw [registrations, ht₀, Option.map_some,
    specFromTunnel_of_unchanged (lookup_enabledByID_id ht₀) hsame]

theorem Due.registered (h : Due old new t) :
    registrations new t.id = some (specFromTunnel t) := by
  rw [registrations, h.1, Option.map_some]

theorem Gone.unregistered (h : Gone old new id) : registrations new id = none := by
  rw [registrations, AList.lookup_eq_none.2 h.2, Option.map_none]

/-- Frames that each leave the entry of an id or set it to `v`, one of them doing so if it is not
`v` to begin with, leave it at `v`. -/
theorem foldl_request {v : Option TunnelSpec} (frames : List AgentFrame)
    (hframes : ∀ f ∈ frames, (∀ regs, f.request regs id = regs id) ∨ ∀ regs, f.request regs id = v)
    (hset : regs id = v ∨ ∃ f ∈ frames, ∀ regs, f.request regs id = v) :
    frames.foldl AgentFrame.request regs id = v := by
  induction frames generalizing regs with
  | nil => exact hset.resolve_right fun ⟨f, hf, _⟩ => absurd hf List.not_mem_nil
  | cons f fs ih =>
    refine ih (fun f hf => hframes f (List.mem_cons_of_mem _ hf)) ?_
    obtain hkeep | hv := hframes f List.mem_cons_self
    · obtain hreg | ⟨f', hf', hv⟩ := hset
      · exact .inl ((hkeep regs).trans hreg)
      · obtain rfl | hf' := List.mem_cons.1 hf'
        · exact .inl (hv regs)
        · exact .inr ⟨f', hf', hv⟩
    · exact .inl (hv regs)

theorem unregister_mem_hotApplyFrames :
    .unregister id ∈ hotApplyFrames old new ↔ Gone old new id := by
  rw [hotApplyFrames, List.mem_append, Gone]
  constructor
  · rintro (h | h)
    · obtain ⟨id', hid', heq⟩ := List.mem_map.1 h
      obtain rfl := AgentFrame.unregister.inj heq
      exact ⟨List.mem_of_mem_filter hid', of_decide_eq_true (List.mem_filter.1 hid').2⟩
    · obtain ⟨e, -, heq⟩ := List.mem_map.1 h
      cases heq
  · rintro ⟨hold, hnew⟩
    exact .inl (List.mem_map.2 ⟨id, List.mem_filter.2 ⟨hold, decide_eq_true hnew⟩, rfl⟩)

theorem due_iff_filter (ht : (enabledByID new).lookup t.id = some t) :
    Due old new t ↔
      (!((enabledByID old).lookup t.id).any fun t₀ => !tunnelChanged t₀ t) = true := by
  rw [Due, and_iff_right ht]
  cases (enabledByID old).lookup t.id with
  | none => simp
  | some t₀ => simp

theorem register_mem_hotApplyFrames :
    .register spec ∈ hotApplyFrames old new ↔ ∃ t, Due old new t ∧ specFromTunnel t = spec := by
  rw [hotApplyFrames, List.mem_append]
  constructor
  · rintro (h | h)
    · obtain ⟨id, -, heq⟩ := List.mem_map.1 h
      cases heq
    · obtain ⟨⟨id, t⟩, he, heq⟩ := List.mem_map.1 h
      obtain ⟨hmem, hfilter⟩ := List.mem_filter.1 he
      have ht : (enabledByID new).lookup id = some t := AList.mem_lookup_iff.2 hmem
      obtain rfl := lookup_enabledByID_id ht
      exact ⟨t, (due_iff_filter ht).2 hfilter, AgentFrame.register.inj heq⟩
  · rintro ⟨t, hdue, rfl⟩
    exact .inr (List.mem_map.2 ⟨⟨t.id, t⟩, List.mem_filter.2
      ⟨AList.mem_lookup_iff.1 hdue.1, (due_iff_filter hdue.1).1 hdue⟩, rfl⟩)

theorem hotApplyFrames_same (h : SameTunnels old new) : hotApplyFrames old new = [] := by
  refine List.eq_nil_iff_forall_not_mem.2 fun f hf => ?_
  obtain hmem | hmem := List.mem_append.1 hf
  · obtain ⟨id, -, rfl⟩ := List.mem_map.1 hmem
    exact h.1 id (unregister_mem_hotApplyFrames.1 hf)
  · obtain ⟨e, -, rfl⟩ := List.mem_map.1 hmem
    obtain ⟨t, hdue, -⟩ := register_mem_hotApplyFrames.1 hf
    exact h.2 t hdue

theorem nodup_hotApplyFrames (old new : List Tunnel) : (hotApplyFrames old new).Nodup := by
  refine List.Nodup.append ?_ ?_ ?_
  · exact ((enabledByID old).keys_nodup.filter _).map fun _ _ h => AgentFrame.unregister.inj h
  · refine List.Nodup.map_on ?_ ((enabledByID new).nodupKeys.nodup.filter _)
    rintro ⟨i, t⟩ ht ⟨j, u⟩ hu heq
    have ht := AList.mem_lookup_iff.2 (List.mem_of_mem_filter ht)
    have hu := AList.mem_lookup_iff.2 (List.mem_of_mem_filter hu)
    have hspec : (specFromTunnel t).id = (specFromTunnel u).id :=
      congrArg TunnelSpec.id (AgentFrame.register.inj heq)
    obtain rfl : i = j :=
      (lookup_enabledByID_id ht).symm.trans (hspec.trans (lookup_enabledByID_id hu))
    obtain rfl := Option.some.inj (Eq.trans (Eq.symm ht) hu)
    rfl
  · intro f hf hf'
    obtain ⟨id, -, rfl⟩ := List.mem_map.1 hf
    obtain ⟨e, -, heq⟩ := List.mem_map.1 hf'
    cases heq

theorem hotApplyFrames_transforms (old new : List Tunnel) :
    Transforms old new (hotApplyFrames old new) where
  unregisters id h :=
    List.count_eq_one_of_mem (nodup_hotApplyFrames old new) (unregister_mem_hotApplyFrames.2 h)
  gone _ h := unregister_mem_hotApplyFrames.1 h
  registers t h := List.count_eq_one_of_mem (nodup_hotApplyFrames old new)
    (register_mem_hotApplyFrames.2 ⟨t, h, rfl⟩)
  due _ h := register_mem_hotApplyFrames.1 h
  result := by
    funext id
    refine foldl_request _ ?_ ?_
    · intro f hf
      cases f with
      | register spec =>
        obtain ⟨t, hdue, rfl⟩ := register_mem_hotApplyFrames.1 hf
        by_cases hid : t.id = id
        · subst hid
          exact .inr fun regs => (Function.update_self _ _ _).trans (hdue.registered).symm
        · exact .inl fun regs => Function.update_of_ne (Ne.symm hid) _ _
      | unregister tunnelID =>
        have hgone := unregister_mem_hotApplyFrames.1 hf
        by_cases hid : tunnelID = id
        · subst hid
          exact .inr fun regs => (Function.update_self _ _ _).trans hgone.unregistered.symm
        · exact .inl fun regs => Function.update_of_ne (Ne.symm hid) _ _
      | proposeConfig | configAck | syncTunnels => exact .inl fun _ => rfl
    · cases hnew : (enabledByID new).lookup id with
      | some t =>
        have ht : registrations new id = some (specFromTunnel t) := by
          rw [registrations, hnew, Option.map_some]
        obtain rfl := lookup_enabledByID_id hnew
        rw [ht]
        by_cases hdue : Due old new t
        · exact .inr ⟨_, register_mem_hotApplyFrames.2 ⟨t, hdue, rfl⟩,
            fun regs => Function.update_self _ _ _⟩
        · exact .inl (registered_of_not_due hnew hdue)
      | none =>
        have hnone : registrations new id = none := by rw [registrations, hnew, Option.map_none]
        rw [hnone]
        by_cases hold : id ∈ (enabledByID old).keys
        · have hgone : Gone old new id := ⟨hold, AList.lookup_eq_none.1 hnew⟩
          exact .inr ⟨_, unregister_mem_hotApplyFrames.2 hgone,
            fun regs => Function.update_self _ _ _⟩
        · exact .inl (congrArg (Option.map _) (AList.lookup_eq_none.2 hold))

/-- Frames that are neither registers nor unregisters transform the one list's registrations to the
other's exactly when nothing is to be done. -/
theorem transforms_iff_of_silent {frames : List AgentFrame}
    (hun : ∀ id, .unregister id ∉ frames) (hreg : ∀ spec, .register spec ∉ frames) :
    Transforms old new frames ↔ SameTunnels old new := by
  constructor
  · intro h
    refine ⟨fun id hgone => ?_, fun t hdue => ?_⟩
    · have hone := h.unregisters id hgone
      rw [List.count_eq_zero_of_not_mem (hun id)] at hone
      exact absurd hone zero_ne_one
    · have hone := h.registers t hdue
      rw [List.count_eq_zero_of_not_mem (hreg _)] at hone
      exact absurd hone zero_ne_one
  · rintro ⟨hgone, hdue⟩
    refine ⟨fun id h => absurd h (hgone id), fun id h => absurd h (hun id),
      fun t h => absurd h (hdue t), fun spec h => absurd h (hreg spec), ?_⟩
    have hkeep : ∀ regs, frames.foldl AgentFrame.request regs = regs := by
      intro regs
      induction frames with
      | nil => rfl
      | cons f fs ih =>
        have hf : f.request regs = regs := by
          cases f with
          | register spec => exact absurd List.mem_cons_self (hreg spec)
          | unregister id => exact absurd List.mem_cons_self (hun id)
          | proposeConfig | configAck | syncTunnels => rfl
        rw [List.foldl_cons, hf]
        exact ih (fun id h => hun id (List.mem_cons_of_mem _ h))
          fun spec h => hreg spec (List.mem_cons_of_mem _ h)
    have hresult := (hotApplyFrames_transforms old new).result
    rw [hotApplyFrames_same ⟨hgone, hdue⟩] at hresult
    exact (hkeep _).trans hresult

end ProxyForward

import ProxyForward.LocalFields

namespace ProxyForward
set_option autoImplicit true

variable {existing : List Tunnel} {specs : List TunnelSpec}

theorem lookup_byID_of_mem (hdistinct : (existing.map (·.id)).Nodup) (ht : t ∈ existing) :
    (byID existing).lookup t.id = some t := by
  obtain ⟨u, hu⟩ := exists_lookup_byID ht
  obtain ⟨hmem, hid⟩ := lookup_byID_mem hu
  rw [hu, List.inj_on_of_nodup_map hdistinct hmem ht hid]

/-- The tunnel that a pushed spec makes of what the agent has. -/
def upserted (existing : List Tunnel) (spec : TunnelSpec) : Tunnel :=
  (((byID existing).lookup spec.id).getD Tunnel.zero).overwrite spec

/-- A draft that the push says nothing about. -/
def unpushedDraft (specs : List TunnelSpec) (t : Tunnel) : Bool :=
  !t.enabled && decide (t.id ∉ specs.map (·.id))

theorem unpushedDraft_iff : unpushedDraft specs t = true ↔
    t.enabled = false ∧ t.id ∉ specs.map (·.id) := by
  rw [unpushedDraft, Bool.and_eq_true, Bool.not_eq_true', decide_eq_true_eq]

theorem mergeTunnels_eq (existing : List Tunnel) (specs : List TunnelSpec) :
    mergeTunnels existing specs =
      specs.map (upserted existing) ++ existing.filter (unpushedDraft specs) := rfl

theorem upserted_of_mem (hdistinct : (existing.map (·.id)).Nodup) (ht : t ∈ existing)
    {spec : TunnelSpec} (hid : spec.id = t.id) :
    upserted existing spec = t.overwrite spec := by
  rw [upserted, hid, lookup_byID_of_mem hdistinct ht, Option.getD_some]

theorem map_id_mergeTunnels (existing : List Tunnel) (specs : List TunnelSpec) :
    (mergeTunnels existing specs).map (·.id) =
      specs.map (·.id) ++ (existing.filter (unpushedDraft specs)).map (·.id) := by
  rw [mergeTunnels_eq, List.map_append, List.map_map]
  rfl

theorem mergeTunnels_distinct (hexisting : (existing.map (·.id)).Nodup)
    (hspecs : (specs.map (·.id)).Nodup) : ((mergeTunnels existing specs).map (·.id)).Nodup := by
  rw [map_id_mergeTunnels, List.nodup_append]
  refine ⟨hspecs, (List.filter_sublist.map _).nodup hexisting, ?_⟩
  intro i hi j hj hij
  obtain ⟨t, ht, rfl⟩ := List.mem_map.1 hj
  exact (unpushedDraft_iff.1 (List.mem_filter.1 ht).2).2 (hij ▸ hi)

theorem mergeTunnels_drafts (existing : List Tunnel) (specs : List TunnelSpec) :
    (mergeTunnels existing specs).filter (!·.enabled) = existing.filter (unpushedDraft specs) := by
  have hpushed : (specs.map (upserted existing)).filter (!·.enabled) = [] := by
    rw [List.filter_eq_nil_iff]
    intro t ht
    obtain ⟨spec, -, rfl⟩ := List.mem_map.1 ht
    exact Bool.false_ne_true
  rw [mergeTunnels_eq, List.filter_append, hpushed, List.nil_append, List.filter_eq_self]
  intro t ht
  rw [(unpushedDraft_iff.1 (List.mem_filter.1 ht).2).1]
  rfl

theorem filter_unpushedDraft_mergeTunnels (existing : List Tunnel) (specs : List TunnelSpec) :
    (mergeTunnels existing specs).filter (unpushedDraft specs) =
      existing.filter (unpushedDraft specs) := by
  have hpushed : (specs.map (upserted existing)).filter (unpushedDraft specs) = [] := by
    rw [List.filter_eq_nil_iff]
    intro t ht
    obtain ⟨spec, -, rfl⟩ := List.mem_map.1 ht
    exact Bool.false_ne_true
  rw [mergeTunnels_eq, List.filter_append, hpushed, List.nil_append, List.filter_filter]
  simp only [Bool.and_self]

theorem mergeTunnels_idem (hexisting : (existing.map (·.id)).Nodup)
    (hspecs : (specs.map (·.id)).Nodup) :
    mergeTunnels (mergeTunnels existing specs) specs = mergeTunnels existing specs := by
  rw [mergeTunnels_eq _ specs, filter_unpushedDraft_mergeTunnels, mergeTunnels_eq existing]
  congr 1
  refine List.map_congr_left fun spec hspec => ?_
  have hmem : upserted existing spec ∈ mergeTunnels existing specs := overwrite_mem existing hspec
  exact upserted_of_mem (mergeTunnels_distinct hexisting hspecs) hmem rfl

/-- A push is exactly what the agent reports afterwards, and it costs neither the local fields of a
tunnel that it names nor a draft that it does not. -/
theorem mergeTunnels_round_trip (existing : List Tunnel) (specs : List TunnelSpec)
    (hexisting : (existing.map (·.id)).Nodup) (hspecs : (specs.map (·.id)).Nodup) :
    let merged := mergeTunnels existing specs
    enabledSpecs merged = specs ∧
    (∀ t ∈ existing, ∀ spec ∈ specs, spec.id = t.id →
      ∃ u ∈ merged, specFromTunnel u = spec ∧ u.enabled = true ∧ u.localAddr = t.localAddr ∧
        u.options.proxyProtocolV2 = t.options.proxyProtocolV2) ∧
    merged.filter (!·.enabled) =
      existing.filter (fun t => !t.enabled && decide (t.id ∉ specs.map (·.id))) ∧
    (∀ u ∈ merged, u.id ∈ specs.map (·.id) ∨
      u ∈ existing ∧ u.enabled = false ∧ u.id ∉ specs.map (·.id)) ∧
    (merged.map (·.id)).Nodup ∧
    mergeTunnels merged specs = merged := by
  refine ⟨enabledSpecs_mergeTunnels existing specs, ?_, mergeTunnels_drafts existing specs, ?_,
    mergeTunnels_distinct hexisting hspecs, mergeTunnels_idem hexisting hspecs⟩
  · intro t ht spec hspec hid
    refine ⟨upserted existing spec, overwrite_mem existing hspec, rfl, rfl, ?_⟩
    rw [upserted_of_mem hexisting ht hid]
    exact ⟨rfl, rfl⟩
  · intro u hu
    rcases mem_mergeTunnels.1 hu with ⟨spec, hspec, rfl⟩ | hdraft
    · exact .inl (List.mem_map_of_mem hspec)
    · exact .inr hdraft

/-- A known tunnel, one that the push drops, a draft it names and one it does not. -/
def mixedTunnels : List Tunnel :=
  [Tunnel.plain "kept" 8080 "127.0.0.1:1", Tunnel.plain "dropped" 8081 "127.0.0.1:2",
    { Tunnel.plain "named" 8082 "127.0.0.1:3" with enabled := false },
    { Tunnel.plain "draft" 8083 "127.0.0.1:4" with enabled := false }]

theorem mergeTunnels_round_trip_mixed :
    let specs := [TunnelSpec.plain "new" 9000, TunnelSpec.plain "named" 9001,
      TunnelSpec.plain "kept" 9002]
    mergeTunnels (mergeTunnels mixedTunnels specs) specs = mergeTunnels mixedTunnels specs ∧
      ((mergeTunnels mixedTunnels specs).map (·.id)) = ["new", "named", "kept", "draft"] := by
  have h := mergeTunnels_round_trip mixedTunnels
    [TunnelSpec.plain "new" 9000, TunnelSpec.plain "named" 9001, TunnelSpec.plain "kept" 9002]
    (by decide) (by decide)
  exact ⟨h.2.2.2.2.2, by decide⟩

end ProxyForward

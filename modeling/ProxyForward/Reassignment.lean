import ProxyForward.PushedConfig

namespace ProxyForward
set_option autoImplicit true

/-- Neither an agent's scope nor the gateway's allowlist constrains its ports. -/
def Unconstrained (scope : Scope) (allowlist : List Int) : Prop :=
  scope.ports = [] ∧ allowlist = []

instance (scope : Scope) (allowlist : List Int) : Decidable (Unconstrained scope allowlist) :=
  inferInstanceAs (Decidable (_ ∧ _))

theorem mem_universe (hc : ¬Unconstrained scope allowlist)
    (hp : portPermitted scope allowlist p = true) :
    p ∈ if scope.ports ≠ [] then scope.ports else allowlist := by
  obtain ⟨hscope, hlist⟩ := Bool.and_eq_true_iff.1 hp
  split
  · rename_i hs
    rw [Scope.allowsPort, List.isEmpty_eq_false_iff.2 hs, Bool.false_or] at hscope
    exact List.contains_iff_mem.1 hscope
  · rename_i hs
    have hne : allowlist ≠ [] := fun ha => hc ⟨not_not.1 hs, ha⟩
    rw [portInAllowlist, List.isEmpty_eq_false_iff.2 hne, Bool.false_or] at hlist
    exact List.contains_iff_mem.1 hlist

theorem reassignCandidates_constrained (hr : requested ≠ 0)
    (hc : ¬Unconstrained scope allowlist) :
    p ∈ reassignCandidates requested scope allowlist ↔
      p ≠ requested ∧ 0 < p ∧ portPermitted scope allowlist p = true := by
  have hc' : ¬(scope.ports = [] ∧ allowlist = []) := hc
  rw [reassignCandidates, if_neg hr, if_neg hc']
  simp only [List.mem_insertionSort, List.mem_dedup, List.mem_filter, decide_eq_true_eq]
  constructor
  · rintro ⟨-, hne, hpos, hscope, hlist⟩
    exact ⟨hne, hpos, Bool.and_eq_true_iff.2 ⟨hscope, hlist⟩⟩
  · rintro ⟨hne, hpos, hperm⟩
    obtain ⟨hscope, hlist⟩ := Bool.and_eq_true_iff.1 hperm
    exact ⟨mem_universe hc hperm, hne, hpos, hscope, hlist⟩

theorem reassignCandidates_unconstrained (hr : requested ≠ 0)
    (hc : Unconstrained scope allowlist) : reassignCandidates requested scope allowlist = [0] := by
  have hc' : scope.ports = [] ∧ allowlist = [] := hc
  rw [reassignCandidates, if_neg hr, if_pos hc']

theorem sorted_dedup (l : List Int) : (l.dedup.insertionSort (· ≤ ·)).Pairwise (· < ·) := by
  have hsorted := List.pairwise_insertionSort (· ≤ ·) l.dedup
  have hnodup := (List.perm_insertionSort (· ≤ ·) l.dedup).nodup_iff.2 l.nodup_dedup
  exact hsorted.imp₂ (fun _ _ hle hne => lt_of_le_of_ne hle hne) hnodup

theorem reassignCandidates_increasing (requested : Int) (scope : Scope) (allowlist : List Int) :
    (reassignCandidates requested scope allowlist).Pairwise (· < ·) := by
  unfold reassignCandidates
  split
  · exact .nil
  · split
    · exact List.pairwise_singleton _ _
    · exact sorted_dedup _

theorem permitted_of_valid {g : Gateway} {spec : TunnelSpec}
    (h : g.validateSpec spec scope = none) (hp : spec.publicPort ≠ 0) :
    0 < spec.publicPort ∧ spec.publicPort ≤ 65535 ∧
      portPermitted scope g.cfg.portAllowlist spec.publicPort = true := by
  have hrange : 1 ≤ spec.publicPort ∧ spec.publicPort ≤ 65535 := by
    have hv := h
    simp only [Gateway.validateSpec] at hv
    split at hv
    · cases hv
    · split at hv
      · cases hv
      · omega
  exact ⟨hrange.1, hrange.2, (Gateway.validateSpec_port h hrange.1 hrange.2).1 h⟩

/-- The candidates for a requested port are the other ports that validation would accept for the
tunnel, but for the numbers above the last port that a policy lists. A request for any port has
none. -/
theorem reassignCandidates_policy (g : Gateway) (spec : TunnelSpec) (scope : Scope)
    (hvalid : g.validateSpec spec scope = none) :
    let candidates := reassignCandidates spec.publicPort scope g.cfg.portAllowlist
    (∀ p ∈ candidates, p ≠ 0 → p ≠ spec.publicPort ∧
      portPermitted scope g.cfg.portAllowlist p = true ∧
      (p ≤ 65535 → g.validateSpec { spec with publicPort := p } scope = none)) ∧
    (spec.publicPort ≠ 0 → ¬Unconstrained scope g.cfg.portAllowlist →
      ∀ p, p ≠ 0 → p ≠ spec.publicPort →
        g.validateSpec { spec with publicPort := p } scope = none → p ∈ candidates) ∧
    candidates.Pairwise (· < ·) ∧
    (0 ∈ candidates ↔ spec.publicPort ≠ 0 ∧ Unconstrained scope g.cfg.portAllowlist) := by
  intro candidates
  have hincreasing : candidates.Pairwise (· < ·) := reassignCandidates_increasing _ _ _
  by_cases hport : spec.publicPort = 0
  · have hall : candidates = [] := if_pos hport
    rw [hall]
    exact ⟨fun p hp => absurd hp List.not_mem_nil, fun h0 => absurd hport h0, .nil,
      iff_of_false List.not_mem_nil fun h0 => h0.1 hport⟩
  by_cases hc : Unconstrained scope g.cfg.portAllowlist
  · have hall : candidates = [0] := reassignCandidates_unconstrained hport hc
    refine ⟨fun p hp h0 => ?_, fun _ hn => absurd hc hn, hincreasing, ?_⟩
    · rw [hall] at hp
      exact absurd (List.mem_singleton.1 hp) h0
    · rw [hall]
      exact iff_of_true (List.mem_singleton.2 rfl) ⟨hport, hc⟩
  · have hmem {p : Int} := reassignCandidates_constrained (p := p) hport hc
    refine ⟨?_, ?_, hincreasing, ?_⟩
    · intro p hp _
      obtain ⟨hne, hpos, hperm⟩ := hmem.1 hp
      exact ⟨hne, hperm, fun hhi => (Gateway.validateSpec_port hvalid hpos hhi).2 hperm⟩
    · intro _ _ p h0 hne haccepted
      obtain ⟨hpos, -, hperm⟩ := permitted_of_valid haccepted h0
      exact hmem.2 ⟨hne, hpos, hperm⟩
    · exact iff_of_false (fun h0 => absurd (hmem.1 h0).2.1 (lt_irrefl 0)) fun h0 => hc h0.2

/-- A scope with a duplicate, a zero and a number that is no port. -/
def looseScope : Scope := ⟨[25566, 25565, 25566, 0, 70000], []⟩

theorem reassignCandidates_policy_loose :
    reassignCandidates 25565 looseScope [] = [25566, 70000] ∧
      idleGateway.validateSpec (TunnelSpec.plain "t" 25566) looseScope = none := by
  have hmem : 25566 ∈ reassignCandidates 25565 looseScope [] := by decide
  have h := reassignCandidates_policy idleGateway (TunnelSpec.plain "t" 25565) looseScope
    (by decide)
  exact ⟨by decide, (h.1 25566 hmem (by decide)).2.2 (by decide)⟩

/-- A request for any port gets no candidate, not even 0, and a scope can list numbers that
validation refuses. -/
theorem reassignCandidates_strays :
    idleGateway.validateSpec (TunnelSpec.plain "t" 0) ⟨[], []⟩ = none ∧
      Unconstrained ⟨[], []⟩ idleGateway.cfg.portAllowlist ∧
      0 ∉ reassignCandidates 0 ⟨[], []⟩ idleGateway.cfg.portAllowlist ∧
      idleGateway.validateSpec (TunnelSpec.plain "t" 25565) looseScope = none ∧
      70000 ∈ reassignCandidates 25565 looseScope idleGateway.cfg.portAllowlist ∧
      idleGateway.validateSpec (TunnelSpec.plain "t" 70000) looseScope ≠ none := by
  decide

end ProxyForward

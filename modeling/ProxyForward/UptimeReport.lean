import ProxyForward.Uptime

namespace ProxyForward
set_option autoImplicit true

def maxUptimeEvents : Nat := 100

def maxUptimeTunnels : Nat := 16

/-- The transitions of a window before they are capped: the state that enters it, when known, and
each one in it. -/
def spansIn (events : List UptimeEvent) (since now : Int) : List UptimeEvent :=
  (if 0 < since then
    match stateAt events since with
    | some up => [⟨since, up⟩]
    | none => []
  else []) ++ events.filter fun e => (since ≤ 0 ∨ since < e.t) ∧ e.t ≤ now

def windowSpans (events : List UptimeEvent) (since now : Int) : List UptimeEvent :=
  let spans := spansIn events since now
  spans.drop (spans.length - maxUptimeEvents)

/-- A row of the report; the engine fills the name in. -/
structure TunnelUptime where
  tunnelID : String
  name : String
  uptimePct : ℚ
  events : List UptimeEvent
  deriving DecidableEq, Repr

structure UptimeReport where
  link : TunnelUptime
  tunnels : List TunnelUptime
  deriving DecidableEq, Repr

/-- When a tunnel last had an event of its local health. -/
def lastActive (journal : List EventRow) (id : String) : Int :=
  (((eventsOf journal eventTunnelLocal id).map (·.t)).max?).getD 0

/-- `tunnelEventIDs` may return `ids`: the tunnels with an event, the last active first, those of
one instant in any order. -/
def TunnelEventIDs (journal : List EventRow) (ids : List String) : Prop :=
  ∃ all : List String, all.Nodup ∧
    (∀ id, id ∈ all ↔ ∃ r ∈ journal, r.kind = eventTunnelLocal ∧ r.tunnelID = id) ∧
    all.Pairwise (fun id id' => lastActive journal id' ≤ lastActive journal id) ∧
    ids = all.take maxUptimeTunnels

def uptimeRow (id : String) (events : List UptimeEvent) (cover : List (Int × Int))
    (since now : Int) : TunnelUptime :=
  ⟨id, "", computeUptimePct events cover since now, windowSpans events since now⟩

/-- What each query of one report finds in the journal; rows may be written between them. -/
structure ReportJournals where
  engine : List EventRow
  link : List EventRow
  ids : List EventRow
  tunnel : String → List EventRow

/-- `TunnelUptime` may return `rep`, with `cover` for the engine's runs. -/
def Reports (j : ReportJournals) (since now : Int) (cover : List (Int × Int))
    (rep : UptimeReport) : Prop :=
  (∃ engine, LoadEvents j.engine eventEngine "" engine ∧ cover = engineCoverage engine now) ∧
  (∃ link, LoadEvents j.link eventLink "" link ∧ rep.link = uptimeRow "" link cover since now) ∧
  ∃ ids, TunnelEventIDs j.ids ids ∧ List.Forall₂ (fun id row => ∃ events,
    LoadEvents (j.tunnel id) eventTunnelLocal id events ∧
      row = uptimeRow id events cover since now) ids rep.tunnels

/-- The spans of a row tell the state from the first one on, and all of it where none is missing. -/
structure Tells (events : List UptimeEvent) (since now : Int) (spans : List UptimeEvent) : Prop
    where
  few : spans.length ≤ maxUptimeEvents
  chronological : Chronological spans
  within : ∀ span ∈ spans, (0 < since → since ≤ span.t) ∧ span.t ≤ max since now
  state : ∀ first ∈ spans.head?, ∀ t, first.t ≤ t → since ≤ t → t ≤ now →
    stateAt spans t = stateAt events t
  whole : spans.length < maxUptimeEvents → ∀ t, since ≤ t → t ≤ now →
    stateAt spans t = stateAt events t

theorem stateFrom_filter (h : Chronological es) (ht : t ≤ now) :
    stateFrom state t (es.filter fun e => e.t ≤ now) = stateFrom state t es := by
  induction es generalizing state with
  | nil => rfl
  | cons e es ih =>
    obtain ⟨hle, hes⟩ := List.pairwise_cons.1 h
    by_cases he : e.t ≤ now
    · rw [List.filter_cons_of_pos (by simpa only [decide_eq_true_eq] using he), stateFrom,
        stateFrom, ih hes]
    · have hlate : ∀ e' ∈ e :: es, t < e'.t := by
        intro e' he'
        have hnow := ht.trans_lt (not_le.1 he)
        rcases List.mem_cons.1 he' with rfl | he'
        · exact hnow
        · exact hnow.trans_le (hle e' he')
      rw [stateFrom_later hlate]
      exact stateFrom_later fun e' he' => hlate e' (List.mem_of_mem_filter he')

theorem stateAt_drop {spans : List UptimeEvent} {first : UptimeEvent} (h : Chronological spans)
    (hfirst : (spans.drop n).head? = some first) (ht : first.t ≤ t) :
    stateAt (spans.drop n) t = stateAt spans t := by
  obtain ⟨rest, hrest⟩ := List.head?_eq_some_iff.1 hfirst
  have hsplit : spans = spans.take n ++ first :: rest := by
    rw [← hrest, List.take_append_drop]
  have hbefore : ∀ e ∈ spans.take n, e.t ≤ t := by
    intro e he
    have hpair := hsplit ▸ h
    exact ((List.pairwise_append.1 hpair).2.2 e he first List.mem_cons_self).trans ht
  rw [hrest, stateAt, stateAt, hsplit, stateFrom_append hbefore, stateFrom, stateFrom, if_pos ht,
    if_pos ht]

theorem spansIn_chronological (h : Chronological events) (since now : Int) :
    Chronological (spansIn events since now) := by
  unfold spansIn
  refine List.pairwise_append.2 ⟨?_, h.filter _, ?_⟩
  · split
    · split
      · exact List.pairwise_singleton ..
      · exact List.Pairwise.nil
    · exact List.Pairwise.nil
  · intro e he e' he'
    split at he
    · rename_i hsince
      split at he
      · obtain rfl := List.mem_singleton.1 he
        have hin := of_decide_eq_true (List.mem_filter.1 he').2
        exact (hin.1.resolve_left hsince.not_ge).le
      · cases he
    · cases he

theorem stateAt_spansIn (h : Chronological events) (hsince : since ≤ t) (ht : t ≤ now) :
    stateAt (spansIn events since now) t = stateAt events t := by
  unfold spansIn
  by_cases hpos : 0 < since
  · have hfilter : events.filter (fun e => (since ≤ 0 ∨ since < e.t) ∧ e.t ≤ now) =
        (events.filter fun e => since < e.t).filter fun e => e.t ≤ now := by
      rw [List.filter_filter]
      refine List.filter_congr fun e _ => ?_
      simp only [hpos.not_ge, false_or, Bool.decide_and, Bool.and_comm]
    have hrest : stateFrom (stateAt events since) t
        ((events.filter fun e => since < e.t).filter fun e => e.t ≤ now) =
        stateFrom (stateAt events since) t (events.filter fun e => since < e.t) :=
      stateFrom_filter (h.filter fun e => since < e.t) ht
    have hsplit : stateAt events t =
        stateFrom (stateAt events since) t (events.filter fun e => since < e.t) :=
      stateFrom_split h hsince
    rw [if_pos hpos, hfilter, hsplit, ← hrest]
    cases hstate : stateAt events since with
    | none => rfl
    | some up =>
      exact if_pos hsince
  · have hfilter : events.filter (fun e => (since ≤ 0 ∨ since < e.t) ∧ e.t ≤ now) =
        events.filter fun e => e.t ≤ now := by
      refine List.filter_congr fun e _ => ?_
      simp only [not_lt.1 hpos, true_or, true_and]
    rw [if_neg hpos, List.nil_append, hfilter]
    exact stateFrom_filter h ht

theorem tells_windowSpans (h : Chronological events) (since now : Int) :
    Tells events since now (windowSpans events since now) where
  few := by
    rw [windowSpans, List.length_drop]
    omega
  chronological := (spansIn_chronological h since now).drop
  within span hspan := by
    have hin := List.mem_of_mem_drop hspan
    rcases List.mem_append.1 hin with hin | hin
    · split at hin
      · split at hin
        · obtain rfl := List.mem_singleton.1 hin
          exact ⟨fun _ => le_rfl, le_max_left ..⟩
        · cases hin
      · cases hin
    · have hin := of_decide_eq_true (List.mem_filter.1 hin).2
      refine ⟨fun hpos => (hin.1.resolve_left hpos.not_ge).le, hin.2.trans (le_max_right ..)⟩
  state first hfirst t ht hsince hnow :=
    (stateAt_drop (spansIn_chronological h since now) hfirst ht).trans
      (stateAt_spansIn h hsince hnow)
  whole hshort t hsince hnow := by
    have hall : windowSpans events since now = spansIn events since now := by
      rw [windowSpans, List.length_drop] at hshort
      have hnone : (spansIn events since now).length - maxUptimeEvents = 0 := by
        have hmax : maxUptimeEvents = 100 := rfl
        omega
      rw [windowSpans, hnone, List.drop_zero]
    rw [hall]
    exact stateAt_spansIn h hsince hnow

theorem upKnown_until (he : Chronological es) (hf : Chronological fs)
    (h : ∀ t, c ≤ t → t ≤ now → stateAt es t = stateAt fs t) (hc : c ≤ a) (hb : b ≤ now) :
    upKnown es a b = upKnown fs a b := by
  rw [upKnown_eq_timeIn he, upKnown_eq_timeIn hf]
  exact timeIn_congr fun t ht htb => h t (hc.trans ht) (htb.le.trans hb)

theorem computeUptimePct_windowSpans (h : Chronological events)
    (hshort : (windowSpans events since now).length < maxUptimeEvents)
    (cover : List (Int × Int)) :
    computeUptimePct (windowSpans events since now) cover since now =
      computeUptimePct events cover since now := by
  have htells := tells_windowSpans h since now
  have hsince : since ≤ (if since ≤ 0 then 0 else since) := by
    split
    · assumption
    · exact le_rfl
  have hterm (iv : Int × Int) :
      upKnown (windowSpans events since now) (max iv.1 (if since ≤ 0 then 0 else since))
        (min iv.2 now) =
        upKnown events (max iv.1 (if since ≤ 0 then 0 else since)) (min iv.2 now) :=
    upKnown_until htells.chronological h (htells.whole hshort) (hsince.trans (le_max_right _ _))
      (min_le_right _ _)
  simp only [computeUptimePct, hterm]

/-- A row speaks for the journal's events of one kind and tunnel. -/
def TunnelUptime.SpeaksFor (row : TunnelUptime) (journal : List EventRow) (kind : String)
    (cover : List (Int × Int)) (since now : Int) : Prop :=
  ∃ events, LoadEvents journal kind row.tunnelID events ∧ Tells events since now row.events ∧
    row.uptimePct = computeUptimePct events cover since now ∧
    (row.events.length < maxUptimeEvents →
      row.uptimePct = computeUptimePct row.events cover since now)

theorem speaksFor_row {id : String} (h : LoadEvents journal kind id events)
    (cover : List (Int × Int))
    (since now : Int) :
    (uptimeRow id events cover since now).SpeaksFor journal kind cover since now :=
  ⟨events, h, tells_windowSpans h.chronological since now, rfl,
    fun hshort => (computeUptimePct_windowSpans h.chronological hshort cover).symm⟩

theorem lastActive_ge {journal : List EventRow} (hr : r ∈ journal)
    (hkind : r.kind = eventTunnelLocal) : r.t ≤ lastActive journal r.tunnelID := by
  have hmem : r.t ∈ (eventsOf journal eventTunnelLocal r.tunnelID).map (·.t) :=
    List.mem_map_of_mem (List.mem_filter.2 ⟨hr, decide_eq_true ⟨hkind, rfl⟩⟩)
  obtain ⟨m, hm⟩ := Option.isSome_iff_exists.1 (List.isSome_max?_of_mem hmem)
  rw [lastActive, hm]
  exact (List.max?_eq_some_iff.1 hm).2 _ hmem

theorem TunnelEventIDs.recent (h : TunnelEventIDs journal ids) :
    ids.Nodup ∧ ids.length ≤ maxUptimeTunnels ∧
      ∀ r ∈ journal, r.kind = eventTunnelLocal → r.tunnelID ∉ ids →
        ids.length = maxUptimeTunnels ∧ ∀ id ∈ ids, r.t ≤ lastActive journal id := by
  obtain ⟨all, hnodup, hall, hsorted, rfl⟩ := h
  refine ⟨hnodup.sublist (List.take_sublist ..), List.length_take_le .., ?_⟩
  intro r hr hkind hout
  have hin : r.tunnelID ∈ all.drop maxUptimeTunnels := by
    have hmem := (hall r.tunnelID).2 ⟨r, hr, hkind, rfl⟩
    rw [← List.take_append_drop maxUptimeTunnels all] at hmem
    exact (List.mem_append.1 hmem).resolve_left hout
  refine ⟨?_, fun id hid => (lastActive_ge hr hkind).trans ?_⟩
  · have hmore := List.length_pos_of_mem hin
    rw [List.length_drop] at hmore
    rw [List.length_take]
    omega
  · have hpair := hsorted
    rw [← List.take_append_drop maxUptimeTunnels all] at hpair
    exact (List.pairwise_append.1 hpair).2.2 id hid _ hin

theorem ids_of_rows (h : List.Forall₂ (fun id (row : TunnelUptime) => row.tunnelID = id) ids rows) :
    rows.map (·.tunnelID) = ids := by
  induction h with
  | nil => rfl
  | cons hid _ ih => rw [List.map_cons, hid, ih]

/-- Every row of a report tells its events of the journal, whatever is written between the queries;
a tunnel that is left out was active no later than those shown. -/
theorem Reports.tells (h : Reports j since now cover rep) :
    rep.link.SpeaksFor j.link eventLink cover since now ∧
      (∀ row ∈ rep.tunnels,
        row.SpeaksFor (j.tunnel row.tunnelID) eventTunnelLocal cover since now) ∧
      (rep.tunnels.map (·.tunnelID)).Nodup ∧ rep.tunnels.length ≤ maxUptimeTunnels ∧
      ∀ r ∈ j.ids, r.kind = eventTunnelLocal → r.tunnelID ∉ rep.tunnels.map (·.tunnelID) →
        rep.tunnels.length = maxUptimeTunnels ∧
          ∀ row ∈ rep.tunnels, r.t ≤ lastActive j.ids row.tunnelID := by
  obtain ⟨-, ⟨link, hlink, hrow⟩, ids, hids, hrows⟩ := h
  have hmap : rep.tunnels.map (·.tunnelID) = ids := by
    refine ids_of_rows (hrows.imp fun id row hrow => ?_)
    obtain ⟨events, -, rfl⟩ := hrow
    rfl
  have hlength : rep.tunnels.length = ids.length := by rw [← hmap, List.length_map]
  obtain ⟨hnodup, hfew, hrecent⟩ := hids.recent
  refine ⟨?_, ?_, hmap ▸ hnodup, hlength ▸ hfew, ?_⟩
  · rw [hrow]
    exact speaksFor_row hlink cover since now
  · intro row hmem
    obtain ⟨i, hi, rfl⟩ := List.getElem_of_mem hmem
    obtain ⟨events, hload, hrow⟩ := hrows.get (hlength ▸ hi) hi
    simp only [List.get_eq_getElem] at hrow hload
    rw [hrow]
    exact speaksFor_row hload cover since now
  · intro r hr hkind hout
    obtain ⟨hfull, hlast⟩ := hrecent r hr hkind (hmap ▸ hout)
    exact ⟨hlength.trans hfull, fun row hrow => hlast _ (hmap ▸ List.mem_map_of_mem hrow)⟩

def oneDay : List EventRow :=
  [⟨100, "", "engine", "", true⟩, ⟨150, "", "link", "", true⟩,
    ⟨200, "", "tunnel_local", "t1", true⟩, ⟨250, "", "link", "", false⟩]

def oneDayReport : UptimeReport :=
  ⟨⟨"", "", 40, [⟨150, true⟩, ⟨250, false⟩]⟩, [⟨"t1", "", 100, [⟨200, true⟩]⟩]⟩

theorem tells_one_day : oneDayReport.link.SpeaksFor oneDay eventLink [(100, 400)] 0 400 := by
  have hload {kind id : String} {rows : List EventRow} (hrows : eventsOf oneDay kind id = rows)
      (hsorted : rows.Pairwise fun r r' => r.t ≤ r'.t) :
      LoadEvents oneDay kind id (rows.map fun r => ⟨r.t, r.up⟩) :=
    ⟨rows, hrows ▸ .refl _, hsorted, rfl⟩
  have hreports : Reports ⟨oneDay, oneDay, oneDay, fun _ => oneDay⟩ 0 400 [(100, 400)]
      oneDayReport := by
    refine ⟨⟨_, hload rfl (by decide), by decide⟩, ⟨_, hload rfl (by decide), by decide +kernel⟩,
      ["t1"], ⟨["t1"], by decide, fun id => ?_, List.pairwise_singleton .., rfl⟩, ?_⟩
    · simp [oneDay, eventTunnelLocal, eq_comm]
    · exact .cons ⟨_, hload rfl (by decide), by decide +kernel⟩ .nil
  exact hreports.tells.1

end ProxyForward

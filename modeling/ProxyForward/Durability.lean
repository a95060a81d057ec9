import ProxyForward.StoreOps

namespace ProxyForward
set_option autoImplicit true

namespace AgentStore

/-- The allowlist that a gateway reads back when it starts. -/
def loadAgentStore (file : Option StoreFile) : AgentStore :=
  match file with
  | none => empty
  | some f => ⟨f.agents.foldl (fun agents r => agents.insert r.pubKey r) ∅, f.nonces, some f⟩

/-- The same agents and tickets. -/
structure Same (s t : AgentStore) : Prop where
  agents : ∀ key, s.lookup key = t.lookup key
  nonces : ∀ ticket, s.nonces.lookup ticket = t.nonces.lookup ticket

theorem Same.refl (s : AgentStore) : s.Same s := ⟨fun _ => rfl, fun _ => rfl⟩

theorem Same.symm {s t : AgentStore} (h : s.Same t) : t.Same s :=
  ⟨fun key => (h.agents key).symm, fun ticket => (h.nonces ticket).symm⟩

theorem Same.trans {s t u : AgentStore} (h : s.Same t) (h' : t.Same u) : s.Same u :=
  ⟨fun key => (h.agents key).trans (h'.agents key),
    fun ticket => (h.nonces ticket).trans (h'.nonces ticket)⟩

/-- Memory is what a reload would give, and every record is filed under its own key. -/
structure InSync (s : AgentStore) : Prop where
  reload : (loadAgentStore s.file).Same s
  own : ∀ key r, s.lookup key = some r → r.pubKey = key

theorem lookup_foldl (l : List AgentRecord) (m : AList fun _ : PubKey => AgentRecord)
    (hm : ∀ key r, m.lookup key = some r → r.pubKey = key) :
    ∀ key r, (l.foldl (fun agents r => agents.insert r.pubKey r) m).lookup key = some r →
      r.pubKey = key := by
  induction l generalizing m with
  | nil => exact hm
  | cons r l ih =>
    refine ih _ fun key r' h => ?_
    rw [lookup_insert_eq] at h
    split at h
    · cases h
      exact Eq.symm ‹_›
    · exact hm key r' h

theorem lookup_foldl_entries (l : List (Sigma fun _ : PubKey => AgentRecord))
    (m : AList fun _ : PubKey => AgentRecord) (hl : l.NodupKeys)
    (hown : ∀ e ∈ l, e.2.pubKey = e.1) (key : PubKey) :
    ((l.map (·.2)).foldl (fun agents r => agents.insert r.pubKey r) m).lookup key =
      (l.dlookup key).or (m.lookup key) := by
  induction l generalizing m with
  | nil => rfl
  | cons e l ih =>
    obtain ⟨hnew, hl⟩ := List.nodupKeys_cons.1 hl
    rw [List.map_cons, List.foldl_cons,
      ih _ hl (fun e' he' => hown e' (List.mem_cons_of_mem _ he')), hown e List.mem_cons_self,
      lookup_insert_eq]
    by_cases hk : key = e.1
    · subst hk
      rw [List.dlookup_eq_none.2 hnew, if_pos rfl, List.dlookup_cons_eq]
      rfl
    · rw [if_neg hk, List.dlookup_cons_ne l e hk]

theorem inSync_load (file : Option StoreFile) : (loadAgentStore file).InSync := by
  cases file with
  | none => exact ⟨Same.refl _, fun _ _ h => absurd h (Option.not_mem_none _)⟩
  | some f =>
    refine ⟨Same.refl _, lookup_foldl f.agents ∅ fun _ _ h => absurd h (Option.not_mem_none _)⟩

theorem inSync_save {s : AgentStore} (hown : ∀ key r, s.lookup key = some r → r.pubKey = key) :
    (s.save true).InSync := by
  refine ⟨⟨fun key => ?_, fun _ => rfl⟩, hown⟩
  refine (lookup_foldl_entries s.agents.entries ∅ s.agents.nodupKeys ?_ key).trans ?_
  · intro e he
    exact hown e.1 e.2 (AList.mem_lookup_iff.2 he)
  · exact Option.or_none

end AgentStore

def StoreReply.ok : StoreReply → Bool
  | .issued (.ok _) | .enrolled (.ok _) | .found true | .adopted (some _) => true
  | _ => false

namespace AgentStore

variable {s : AgentStore} {op : StoreOp}

/-- One call with the outcome of its file write. -/
def stepWritten (s : AgentStore) (call : StoreOp × Bool) : Option AgentStore :=
  some (s.exec call.2 call.1).2

/-- A call that reports success is on disk; one that reports an error changed neither memory nor
disk. -/
def StepsDurably (s : AgentStore) (call : StoreOp × Bool) : Prop :=
  let r := s.exec call.2 call.1
  if r.1.ok then (loadAgentStore r.2.file).Same r.2 else r.2.Same s ∧ r.2.file = s.file

/-- The call has nothing to write: it is refused, or sets what is there already. -/
def Idle (s : AgentStore) : StoreOp → Prop
  | .issueEnrollment ticket reusable exp scope =>
    s.nonces.lookup ticket = some ⟨exp, reusable, scope, false⟩
  | .enroll pubKey agentID ticket now => s.accepts pubKey agentID ticket now →
      ∃ n ∈ s.nonces.lookup ticket, n.reusable = true ∧
        s.lookup pubKey = some (s.newRecord pubKey agentID n now)
  | .revoke agentID => ∀ e ∈ s.find? agentID, e.2.revoked = true
  | .rename agentID nickname => ∀ e ∈ s.find? agentID, e.2.nickname = nickname
  | .setScope agentID scope => ∀ e ∈ s.find? agentID, e.2.scope = scope
  | .adoptConfig agentID _ => s.find? agentID = none

theorem ok_edits {fn : AgentRecord → AgentRecord} (h : op.edits = some (i, fn)) (written : Bool) :
    (s.exec written op).1.ok = (s.find? i).isSome := by
  cases op with
  | issueEnrollment | enroll => cases h
  | revoke | rename | setScope =>
    cases h
    simp only [exec, revoke, rename, setScope, mutate]
    split <;> rename_i hf <;> rw [hf] <;> rfl
  | adoptConfig =>
    cases h
    simp only [exec, adoptConfig]
    cases s.find? i <;> rfl

theorem own_insert (hown : ∀ key r, s.lookup key = some r → r.pubKey = key) (hr : r.pubKey = k) :
    ∀ key r', (s.agents.insert k r).lookup key = some r' → r'.pubKey = key := by
  intro key r' h
  rw [lookup_insert_eq] at h
  split at h
  · cases h
    exact hr.trans (Eq.symm ‹_›)
  · exact hown key r' h

/-- Filing a record changes nothing exactly when it is there already. -/
theorem same_insert {t : AgentStore} (hn : t.nonces = s.nonces)
    (ht : t.agents = s.agents.insert k r) :
    t.Same s ↔ s.lookup k = some r := by
  constructor
  · intro h
    rw [← h.agents k, lookup, ht]
    exact AList.lookup_insert _
  · intro h
    refine ⟨fun key => ?_, fun _ => by rw [hn]⟩
    rw [lookup, ht, lookup_insert_eq]
    split
    · subst key
      exact h.symm
    · rfl

theorem stepsDurably_edits (h : s.InSync) {fn : AgentRecord → AgentRecord}
    (hop : op.edits = some (i, fn)) (written : Bool) :
    s.StepsDurably (op, written) ↔ written = true ∨ ∀ e ∈ s.find? i, fn e.2 = e.2 := by
  have hok := ok_edits (s := s) hop written
  have hexec := exec_edits (s := s) hop written
  cases hf : s.find? i with
  | none =>
    rw [mutate_none hf] at hexec
    rw [hf] at hok
    simp only [StepsDurably, hok, hexec, Option.isSome_none, Bool.false_eq_true, if_false, and_true]
    exact iff_of_true (Same.refl s) (.inr fun _ he => absurd he (Option.not_mem_none _))
  | some e =>
    obtain ⟨k, r⟩ := e
    have hl : s.lookup k = some r := find?_lookup hf
    rw [mutate_some hf] at hexec
    rw [hf] at hok
    simp only [StepsDurably, hok, hexec, Option.isSome_some, if_true, Option.mem_def,
      Option.some.injEq, forall_eq']
    cases written with
    | true =>
      refine iff_of_true (InSync.reload (inSync_save ?_)) (.inl rfl)
      exact own_insert h.own ((edits_id hop r).2.trans (h.own k r hl))
    | false =>
      have hsame := same_insert (s := s) (t := { s with agents := s.agents.insert k (fn r) })
        rfl rfl
      rw [hl, Option.some.injEq] at hsame
      simp only [Bool.false_eq_true, false_or]
      constructor
      · intro hd
        exact (hsame.1 (hd.symm.trans h.reload)).symm
      · intro hfn
        exact h.reload.trans (hsame.2 hfn.symm).symm

theorem stepsDurably_issue (h : s.InSync) (ticket : String) (reusable : Bool)
    (exp : Option Int) (scope : Scope) (written : Bool) :
    s.StepsDurably (.issueEnrollment ticket reusable exp scope, written) ↔
      written = true ∨ s.nonces.lookup ticket = some ⟨exp, reusable, scope, false⟩ := by
  cases written with
  | true => exact iff_of_true (InSync.reload (inSync_save h.own)) (.inl rfl)
  | false =>
    simp only [Bool.false_eq_true, false_or]
    constructor
    · rintro ⟨hd, -⟩
      rw [← hd.nonces ticket]
      exact AList.lookup_insert _
    · intro hn
      refine ⟨⟨fun _ => rfl, fun t => ?_⟩, rfl⟩
      refine (lookup_insert_eq _ _ _ _).trans ?_
      split
      · subst t
        exact hn.symm
      · rfl

theorem stepsDurably_enroll (h : s.InSync) (pubKey : PubKey) (agentID ticket : String)
    (now : Int) (written : Bool) :
    s.StepsDurably (.enroll pubKey agentID ticket now, written) ↔
      written = true ∨ s.Idle (.enroll pubKey agentID ticket now) := by
  obtain ⟨hrefused, e, he⟩ | ⟨n, hn, hacc, he⟩ := enroll_cases s pubKey agentID ticket now written
  · refine iff_of_true ?_ (.inr fun hacc => absurd hacc hrefused)
    simp only [StepsDurably, exec, he]
    exact ⟨Same.refl s, trivial⟩
  · cases written with
    | true =>
      refine iff_of_true ?_ (.inl rfl)
      simp only [StepsDurably, exec, he]
      refine InSync.reload (inSync_save ?_)
      simp only [lookup, consume_agents]
      exact own_insert h.own rfl
    | false =>
      let t := consume
        { s with agents := s.agents.insert pubKey (s.newRecord pubKey agentID n now) }
        ticket n
      have hd : s.StepsDurably (.enroll pubKey agentID ticket now, false) ↔
          t.Same s ∧ t.file = s.file := by
        simp only [StepsDurably, exec, he]
        exact Iff.rfl
      have hidle : s.Idle (.enroll pubKey agentID ticket now) ↔
          n.reusable = true ∧ s.lookup pubKey = some (s.newRecord pubKey agentID n now) := by
        simp only [Idle, hacc, hn, Option.mem_def, Option.some.injEq, exists_eq_left', forall_const]
      simp only [hd, hidle, Bool.false_eq_true, false_or]
      by_cases hr : n.reusable = true
      · have ht :
        t = { s with agents := s.agents.insert pubKey (s.newRecord pubKey agentID n now) } :=
          if_pos hr
        have hsame := same_insert (s := s) (t := { s with
          agents := s.agents.insert pubKey (s.newRecord pubKey agentID n now) }) rfl rfl
        simp only [ht, hsame, hr, and_true, true_and]
      · have hc : n.consumed = false := ((accepts_iff hn).1 hacc).1
        refine iff_of_false ?_ fun hi => hr hi.1
        rintro ⟨hsame, -⟩
        have hspent : t.nonces.lookup ticket = some { n with consumed := true } := by
          simp only [t, consume, if_neg hr]
          exact AList.lookup_insert _
        rw [hsame.nonces, hn, Option.some.injEq] at hspent
        have hmarked : n.consumed = true := congrArg EnrollNonce.consumed hspent
        rw [hc] at hmarked
        cases hmarked

theorem stepsDurably_iff (h : s.InSync) (op : StoreOp) (written : Bool) :
    s.StepsDurably (op, written) ↔ written = true ∨ s.Idle op := by
  cases op with
  | issueEnrollment ticket reusable exp scope =>
    exact stepsDurably_issue h ticket reusable exp scope written
  | enroll pubKey agentID ticket now =>
    exact stepsDurably_enroll h pubKey agentID ticket now written
  | revoke | rename | setScope =>
    refine (stepsDurably_edits h rfl written).trans (or_congr_right ?_)
    exact forall₂_congr fun e _ => ⟨fun he => he ▸ rfl, fun he => he ▸ rfl⟩
  | adoptConfig =>
    refine (stepsDurably_edits h rfl written).trans (or_congr_right ?_)
    rw [Idle, Option.eq_none_iff_forall_not_mem]
    refine forall₂_congr fun e _ => iff_of_false (fun he => ?_) id
    exact Nat.succ_ne_self _ (congrArg AgentRecord.configGen he)

theorem own_exec (hown : ∀ key r, s.lookup key = some r → r.pubKey = key) (op : StoreOp)
    (written : Bool) : ∀ key r, (s.exec written op).2.lookup key = some r → r.pubKey = key := by
  have hedits (i : String) (fn : AgentRecord → AgentRecord) (hop : op.edits = some (i, fn)) :
      ∀ key r, (s.exec written op).2.lookup key = some r → r.pubKey = key := by
    rw [exec_edits hop]
    cases hf : s.find? i with
    | none =>
      rw [mutate_none hf]
      exact hown
    | some e =>
      rw [mutate_some hf, lookup_save]
      exact own_insert hown ((edits_id hop e.2).2.trans (hown e.1 e.2 (find?_lookup hf)))
  cases op with
  | issueEnrollment =>
    simp only [exec, issueEnrollment, lookup_save]
    exact hown
  | enroll pubKey agentID ticket now =>
    obtain ⟨-, e, he⟩ | ⟨n, -, -, he⟩ := enroll_cases s pubKey agentID ticket now written
    · simp only [exec, he]
      exact hown
    · simp only [exec, he, lookup, save_agents, consume_agents]
      exact own_insert hown rfl
  | revoke | rename | setScope | adoptConfig => exact hedits _ _ rfl

theorem InSync.exec (h : s.InSync) (hd : s.StepsDurably (op, written)) :
    (s.exec written op).2.InSync := by
  refine ⟨?_, own_exec h.own op written⟩
  simp only [StepsDurably] at hd
  split at hd
  · exact hd
  · obtain ⟨hsame, hfile⟩ := hd
    rw [hfile]
    exact h.reload.trans hsame.symm

/-- The write succeeds, or the call has nothing to write. -/
def WriteSafe (s : AgentStore) (call : StoreOp × Bool) : Prop := call.2 = true ∨ s.Idle call.1

end AgentStore

/-- From a store just loaded, along every run: each call that reports success is on disk, and each
that reports an error changed nothing, exactly when no call that has something to write fails to
write it. -/
theorem calls_durable_iff (file : Option StoreFile) (calls : List (StoreOp × Bool)) :
    Runs.Along AgentStore.stepWritten AgentStore.StepsDurably (AgentStore.loadAgentStore file)
        calls ↔
      Runs.Along AgentStore.stepWritten AgentStore.WriteSafe (AgentStore.loadAgentStore file)
        calls := by
  refine Runs.along_congr_while (fun s call t h hs => ?_) (AgentStore.inSync_load file)
  obtain ⟨op, written⟩ := call
  have hiff := AgentStore.stepsDurably_iff h op written
  obtain rfl := Option.some.inj hs
  exact ⟨hiff, fun hsafe => h.exec (hiff.2 hsafe)⟩

/-- A revocation whose write fails reports success; the agent is back after a restart. -/
theorem revocation_lost :
    ¬Runs.Along AgentStore.stepWritten AgentStore.StepsDurably (AgentStore.loadAgentStore none)
      [(.issueEnrollment "code" false none ⟨[], []⟩, true), (.enroll "k" "agt_k" "code" 0, true),
        (.revoke "agt_k", false)] := by
  intro h
  obtain ⟨-, h⟩ := h.cons rfl
  obtain ⟨-, h⟩ := h.cons rfl
  obtain ⟨⟨hagents, -⟩, -⟩ := h.cons rfl
  exact absurd (congrArg (Option.map AgentRecord.revoked) (hagents "k")) (by decide)

end ProxyForward

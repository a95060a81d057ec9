import ProxyForward.StoreOps

namespace ProxyForward
set_option autoImplicit true

/-- A store whose writes succeed, with what its calls did: the tickets as they were minted, and the
ticket of every enrollment that succeeded. -/
structure Ledger where
  store : AgentStore
  minted : GoMap EnrollNonce
  used : List String

namespace Ledger

def empty : Ledger := ⟨.empty, ∅, []⟩

def step (l : Ledger) (op : StoreOp) : Option Ledger :=
  let r := l.store.exec true op
  match op, r.1 with
  | .issueEnrollment ticket reusable exp scope, .issued (.ok _) =>
    some ⟨r.2, l.minted.insert ticket ⟨exp, reusable, scope, false⟩, l.used⟩
  | .enroll _ _ ticket _, .enrolled (.ok _) => some ⟨r.2, l.minted, ticket :: l.used⟩
  | _, _ => some { l with store := r.2 }

/-- Tickets are random: none is minted twice. -/
def MintsFresh (l : Ledger) : StoreOp → Prop
  | .issueEnrollment ticket _ _ _ => ticket ∉ l.minted
  | _ => True

instance (l : Ledger) (op : StoreOp) : Decidable (l.MintsFresh op) :=
  match op with
  | .issueEnrollment ticket _ _ _ => inferInstanceAs (Decidable (ticket ∉ l.minted))
  | .enroll .. | .revoke _ | .rename .. | .setScope .. | .adoptConfig .. => .isTrue trivial

/-- An enrollment succeeds only with a minted ticket that is not expired and, unless reusable, not
used; it then files a record with the ticket's scope. Refused, it changes nothing. -/
def EnrollsSafely (l : Ledger) : StoreOp → Prop
  | .enroll pubKey agentID ticket now =>
    match l.store.enroll pubKey agentID ticket now true with
    | (.ok r, store) => ∃ n, l.minted.lookup ticket = some n ∧
        AgentStore.expired n now = false ∧ (n.reusable = true ∨ ticket ∉ l.used) ∧
        store.lookup pubKey = some r ∧ r.scope = n.scope
    | (.error _, store) => store = l.store
  | _ => True

/-- Single-use tickets were used at most once, and no two keys hold one agent id. -/
structure Safe (l : Ledger) : Prop where
  single : ∀ ticket n, l.minted.lookup ticket = some n → n.reusable = false →
    l.used.count ticket ≤ 1
  distinct : l.store.Distinct

/-- What the store knows of a ticket that was minted as `n`. -/
def spent (l : Ledger) (ticket : String) (n : EnrollNonce) : EnrollNonce :=
  { n with consumed := !n.reusable && decide (ticket ∈ l.used) }

/-- The store's tickets are the minted ones, and the single-use ones that were used are marked
so. -/
structure Inv (l : Ledger) : Prop extends l.Safe where
  nonces : ∀ ticket, l.store.nonces.lookup ticket = (l.minted.lookup ticket).map (l.spent ticket)
  known : ∀ ticket ∈ l.used, ticket ∈ l.minted

theorem inv_empty : empty.Inv where
  single := fun _ _ h => absurd h (Option.not_mem_none _)
  distinct := fun _ _ _ _ h => absurd h (Option.not_mem_none _)
  nonces := fun _ => rfl
  known := fun _ h => absurd h List.not_mem_nil

theorem Inv.minted_of {l : Ledger} (h : l.Inv) (hn : l.store.nonces.lookup ticket = some n) :
    ∃ m, l.minted.lookup ticket = some m ∧ l.spent ticket m = n := by
  rw [h.nonces] at hn
  exact Option.map_eq_some_iff.1 hn

theorem Inv.issue {l : Ledger} (h : l.Inv) (hfresh : ticket ∉ l.minted) (reusable : Bool)
    (exp : Option Int) (scope : Scope) :
    Inv ⟨(l.store.issueEnrollment ticket reusable exp scope true).2,
      l.minted.insert ticket ⟨exp, reusable, scope, false⟩, l.used⟩ := by
  have hunused : ticket ∉ l.used := fun hu => hfresh (h.known ticket hu)
  constructor
  · constructor
    · intro t n hn hr
      rw [lookup_insert_eq] at hn
      split at hn
      · subst t
        rw [List.count_eq_zero_of_not_mem hunused]
        exact Nat.zero_le 1
      · exact h.single t n hn hr
    · exact h.distinct
  · intro t
    simp only [AgentStore.issueEnrollment, AgentStore.save_nonces, lookup_insert_eq]
    split
    · subst t
      simp only [Option.map_some, spent, hunused, decide_false, Bool.and_false]
    · exact h.nonces t
  · intro t ht
    exact (AList.mem_insert _).2 (.inr (h.known t ht))

theorem Inv.enrolled {l : Ledger} {s : AgentStore} (h : l.Inv)
    (hm : l.minted.lookup ticket = some m)
    (hn : l.store.nonces.lookup ticket = some (l.spent ticket m))
    (hunused : m.reusable = true ∨ ticket ∉ l.used) (hd : s.Distinct)
    (hstore : s.nonces = (AgentStore.consume l.store ticket (l.spent ticket m)).nonces) :
    Inv ⟨s, l.minted, ticket :: l.used⟩ := by
  have hother (t : String) (ht : t ≠ ticket) (n : EnrollNonce) :
      spent ⟨s, l.minted, ticket :: l.used⟩ t n = l.spent t n := by
    simp only [spent, List.mem_cons, ht, false_or]
  constructor
  · constructor
    · intro t n hn hr
      by_cases ht : t = ticket
      · subst t
        obtain rfl : m = n := Option.some.inj (hm.symm.trans hn)
        have hno : ticket ∉ l.used := hunused.resolve_left (Bool.eq_false_iff.1 hr)
        rw [List.count_cons_self, List.count_eq_zero_of_not_mem hno]
      · rw [List.count_cons_of_ne (Ne.symm ht)]
        exact h.single t n hn hr
    · exact hd
  · intro t
    simp only [hstore, AgentStore.consume]
    by_cases ht : t = ticket
    · subst t
      by_cases hr : (l.spent ticket m).reusable = true
      · rw [if_pos hr, hn, hm]
        change m.reusable = true at hr
        simp only [Option.map_some, spent, hr, Bool.not_true, Bool.false_and]
      · rw [if_neg hr, lookup_insert_eq, if_pos rfl, hm]
        change ¬m.reusable = true at hr
        simp only [Option.map_some, spent, hr, Bool.not_false, Bool.true_and, List.mem_cons,
          true_or, decide_true]
    · have hsame : l.store.nonces.lookup t = (l.minted.lookup t).map
          (spent ⟨s, l.minted, ticket :: l.used⟩ t) := by
        rw [h.nonces, funext (hother t ht)]
      split
      · exact hsame
      · rw [lookup_insert_eq, if_neg ht]
        exact hsame
  · intro t ht
    obtain rfl | ht := List.mem_cons.1 ht
    · exact AList.lookup_isSome.1 (hm ▸ rfl)
    · exact h.known t ht

theorem Inv.edited {l : Ledger} (h : l.Inv) {op : StoreOp} {fn : AgentRecord → AgentRecord}
    (hop : op.edits = some (i, fn)) : Inv { l with store := (l.store.exec true op).2 } := by
  have hnonces : (l.store.exec true op).2.nonces = l.store.nonces := by
    rw [AgentStore.exec_edits hop, AgentStore.mutate_nonces]
  refine ⟨⟨h.single, ?_⟩, fun t => ?_, h.known⟩
  · simp only [AgentStore.exec_edits hop]
    exact h.distinct.mutate fun r => (AgentStore.edits_id hop r).1
  · simp only [hnonces]
    exact h.nonces t

theorem Inv.enroll {l : Ledger} (h : l.Inv)
    (hs : l.step (.enroll pubKey agentID ticket now) = some t) :
    t.Inv ∧ l.EnrollsSafely (.enroll pubKey agentID ticket now) := by
  obtain ⟨-, e, he⟩ | ⟨n, hn, hacc, he⟩ :=
    AgentStore.enroll_cases l.store pubKey agentID ticket now true
  · simp only [step, AgentStore.exec, he, Option.some.injEq] at hs
    subst t
    simp only [EnrollsSafely, he, and_true]
    exact h
  · have hd : (l.store.enroll pubKey agentID ticket now true).2.Distinct :=
      h.distinct.enroll pubKey agentID ticket now true
    obtain ⟨hc, hx, -⟩ := (AgentStore.accepts_iff hn).1 hacc
    obtain ⟨m, hm, rfl⟩ := h.minted_of hn
    have hunused : m.reusable = true ∨ ticket ∉ l.used := by
      simp only [spent, Bool.and_eq_false_iff, Bool.not_eq_false', decide_eq_false_iff_not] at hc
      exact hc
    simp only [step, AgentStore.exec, he, if_true, Option.some.injEq] at hs
    rw [he] at hd
    subst t
    refine ⟨h.enrolled hm hn hunused hd ?_, ?_⟩
    · rw [AgentStore.save_nonces, AgentStore.consume_nonces]
    · simp only [EnrollsSafely, he, if_true]
      refine ⟨m, hm, hx, hunused, ?_, rfl⟩
      rw [AgentStore.lookup_enrolled, if_pos rfl]

theorem Inv.step {l : Ledger} (h : l.Inv) {op : StoreOp} (hop : l.MintsFresh op)
    (hs : l.step op = some t) : t.Inv ∧ l.EnrollsSafely op := by
  cases op with
  | enroll => exact h.enroll hs
  | issueEnrollment ticket reusable exp scope =>
    simp only [Ledger.step, AgentStore.exec, AgentStore.issueEnrollment, if_true,
      Option.some.injEq] at hs
    subst t
    exact ⟨h.issue hop reusable exp scope, trivial⟩
  | revoke | rename | setScope | adoptConfig =>
    obtain rfl := Option.some.inj hs
    exact ⟨h.edited rfl, trivial⟩

end Ledger

/-- From the empty store, along every run that mints distinct tickets: enrollments succeed only with
a ticket that is known, not expired and not spent, and give the key the ticket's scope; single-use
tickets are used once, agent ids stay distinct, and refusals change nothing. -/
theorem tickets_safe (ops : List StoreOp)
    (hfresh : Runs.Along Ledger.step Ledger.MintsFresh Ledger.empty ops) :
    Runs.Along Ledger.step Ledger.EnrollsSafely Ledger.empty ops ∧
      Runs.Always Ledger.step Ledger.Safe Ledger.empty ops :=
  ⟨Runs.along_of_invariant (fun _ _ _ h hop hs => h.step hop hs) Ledger.inv_empty hfresh,
    Runs.always_of_invariant (fun _ _ _ h hop hs => (h.step hop hs).1) (fun _ h => h.toSafe)
      Ledger.inv_empty hfresh⟩

/-- A single-use ticket lets one key in, and the next key is refused. -/
theorem tickets_safe_single :
    let ops : List StoreOp := [.issueEnrollment "code" false none ⟨[8080], []⟩,
      .enroll "k" "agt_k" "code" 0, .enroll "l" "agt_l" "code" 1]
    Runs.Along Ledger.step Ledger.EnrollsSafely Ledger.empty ops ∧
      Runs.Always Ledger.step Ledger.Safe Ledger.empty ops :=
  tickets_safe _ (by decide)

end ProxyForward

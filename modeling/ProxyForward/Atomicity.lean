import ProxyForward.Linearization
import ProxyForward.Validation

namespace ProxyForward
set_option autoImplicit true

namespace Authority

/-- The validator by key, up to and with the lookup. -/
def identityLookup (auth : Authority) (store : AgentStore) (hello : Hello) : Looked :=
  if ¬auth.verifyAgentAuth hello.agentPubKey hello.agentSig then .decided (.error .badToken)
  else match store.lookup hello.agentPubKey with
    | some r =>
      if r.revoked then .decided (.error .revoked)
      else .decided (.ok ⟨r.agentID, some hello.agentPubKey, r.scope⟩)
    | none => if hello.enrollTicket = "" then .decided (.error .badToken) else .unknown

def identityEnroll (auth : Authority) (store : AgentStore) (hello : Hello) (now : Int)
    (written : Bool) : Except ValidateError Identity × AgentStore :=
  match store.enroll hello.agentPubKey (auth.agentID hello.agentPubKey) hello.enrollTicket now
      written with
  | (.ok r, store) => (.ok ⟨r.agentID, some hello.agentPubKey, r.scope⟩, store)
  | (.error e, store) => (.error (.enroll e), store)

def identityValidate (auth : Authority) (store : AgentStore) (hello : Hello) (now : Int)
    (written : Bool) : Except ValidateError Identity × AgentStore :=
  match auth.identityLookup store hello with
  | .decided r => (r, store)
  | .unknown => auth.identityEnroll store hello now written

theorem compositeValidate_eq (auth : Authority) (store : AgentStore)
    (hkey : hello.agentPubKey ≠ "") (now : Int) (written : Bool) :
    auth.compositeValidate store hello now written =
      let r := auth.identityValidate store hello now written
      (match r.1 with
        | .ok i => .ok i
        | .error e => auth.fallback hello e, r.2) := by
  simp only [compositeValidate, validate, identityValidate, identityLookup, if_neg hkey]
  by_cases hsig : ¬auth.verifyAgentAuth hello.agentPubKey hello.agentSig
  · simp only [if_pos hsig]
  · simp only [if_neg hsig]
    cases store.lookup hello.agentPubKey with
    | some r =>
      by_cases hr : r.revoked = true
      · simp only [if_pos hr]
        rfl
      · simp only [if_neg hr]
    | none =>
      by_cases ht : hello.enrollTicket = ""
      · simp only [if_pos ht]
      · simp only [if_neg ht, enroll, identityEnroll]
        generalize store.enroll _ _ _ now written = enrolled
        obtain ⟨_ | _, _⟩ := enrolled <;> rfl

end Authority

/-- The checks an enrollment makes before it writes anything. -/
def AgentStore.refusal (s : AgentStore) (pubKey : PubKey) (agentID ticket : String) (now : Int) :
    Option EnrollError :=
  match s.nonces.lookup ticket with
  | none => some .ticketUnknown
  | some n =>
    if n.consumed then some .ticketConsumed
    else if expired n now then some .ticketExpired
    else if s.collides pubKey agentID then some .agentIDCollision
    else none

theorem AgentStore.enroll_refused {s : AgentStore}
    (h : s.refusal pubKey agentID ticket now = some e) (written : Bool) :
    s.enroll pubKey agentID ticket now written = (.error e, s) := by
  cases hn : s.nonces.lookup ticket with
  | none =>
    simp only [refusal, hn, Option.some.injEq] at h
    simp only [enroll, hn, h]
  | some n =>
    simp only [refusal, hn] at h
    simp only [enroll, hn]
    by_cases hc : n.consumed = true
    · rw [if_pos hc] at h ⊢
      cases h
      rfl
    by_cases hx : expired n now = true
    · rw [if_neg hc, if_pos hx] at h ⊢
      cases h
      rfl
    by_cases hl : s.collides pubKey agentID = true
    · rw [if_neg hc, if_neg hx, if_pos hl] at h ⊢
      cases h
      rfl
    · rw [if_neg hc, if_neg hx, if_neg hl] at h
      cases h

/-- A hello to validate, with the clock and the outcome of the file write that its enrollment meets
if it comes to one. -/
structure ValidateCall where
  hello : Hello
  now : Int
  written : Bool

inductive WholeCall where
  | validate (c : ValidateCall)
  | manage (op : StoreOp) (written : Bool)

inductive WholeReply where
  | validated (r : Except ValidateError Identity)
  | managed (r : StoreReply)

/-- One call run from start to end with no other in between. -/
def Authority.whole (auth : Authority) (s : AgentStore) : WholeCall → WholeReply × AgentStore
  | .validate c =>
    let r := auth.identityValidate s c.hello c.now c.written
    (.validated r.1, r.2)
  | .manage op written =>
    let r := s.exec written op
    (.managed r.1, r.2)

/-- The store with the validations that stand between their lookup and their enrollment, each with
the store its lookup saw, and the calls that are over with their replies. -/
structure Validating where
  store : AgentStore
  pending : Nat → Option (ValidateCall × AgentStore)
  done : List (WholeCall × WholeReply)

def Validating.start (store : AgentStore) : Validating := ⟨store, fun _ => none, []⟩

inductive ValidatingStep where
  | lookup (n : Nat) (c : ValidateCall)
  | enroll (n : Nat)
  | manage (op : StoreOp) (written : Bool)

namespace Validating

def step (auth : Authority) (v : Validating) : ValidatingStep → Option Validating
  | .lookup n c =>
    match v.pending n with
    | some _ => none
    | none =>
      match auth.identityLookup v.store c.hello with
      | .decided r => some { v with done := (.validate c, .validated r) :: v.done }
      | .unknown => some { v with pending := Function.update v.pending n (some (c, v.store)) }
  | .enroll n =>
    match v.pending n with
    | none => none
    | some (c, _) =>
      let r := auth.identityEnroll v.store c.hello c.now c.written
      some ⟨r.2, Function.update v.pending n none, (.validate c, .validated r.1) :: v.done⟩
  | .manage op written =>
    if op.enrolls then none
    else
      let r := v.store.exec written op
      some { v with store := r.2, done := (.manage op written, .managed r.1) :: v.done }

/-- The replies so far and the store are those of some order of the whole calls. -/
def Atomic (auth : Authority) (s : AgentStore) (v : Validating) : Prop :=
  Runs.Linear auth.whole s v.done v.store

/-- An enrollment finds the key as its lookup left it, without a record, or is refused for a reason
its lookup could have seen. -/
def Undisturbed (auth : Authority) (v : Validating) : ValidatingStep → Prop
  | .enroll n => ∀ p ∈ v.pending n,
    let check (s : AgentStore) := s.refusal p.1.hello.agentPubKey
      (auth.agentID p.1.hello.agentPubKey) p.1.hello.enrollTicket p.1.now
    v.store.lookup p.1.hello.agentPubKey = none ∨
      (check p.2).isSome = true ∧ check v.store = check p.2
  | _ => True

instance (auth : Authority) (v : Validating) (l : ValidatingStep) :
    Decidable (v.Undisturbed auth l) :=
  match l with
  | .enroll n => inferInstanceAs (Decidable (∀ p ∈ v.pending n, _ ∨ _))
  | .lookup _ _ | .manage _ _ => .isTrue trivial

variable {auth : Authority} {v w : Validating}

/-- The lookups still out saw what they saw: a key without a record, and a state of the order. -/
structure Inv (auth : Authority) (s : AgentStore) (v : Validating) : Prop where
  linear : Runs.LinearThrough auth.whole s v.done v.store fun u => ∃ n c, v.pending n = some (c, u)
  unknown : ∀ n c u, v.pending n = some (c, u) → auth.identityLookup u c.hello = .unknown

theorem inv_start (auth : Authority) (s : AgentStore) : (start s).Inv auth s where
  linear := (Runs.linearThrough_nil s).mono fun _ ⟨_, _, h⟩ => absurd h (Option.not_mem_none _)
  unknown := fun _ _ _ h => absurd h (Option.not_mem_none _)

theorem update_pending (h : Function.update v.pending n p m = some q) :
    m = n ∧ p = some q ∨ v.pending m = some q := by
  rw [Function.update_apply] at h
  split at h
  · exact .inl ⟨‹_›, h⟩
  · exact .inr h

theorem identityValidate_unknown {store : AgentStore} (hu : auth.identityLookup u hello = .unknown)
    (hnone : store.lookup hello.agentPubKey = none) (now : Int) (written : Bool) :
    auth.identityValidate store hello now written =
      auth.identityEnroll store hello now written := by
  have hlookup : auth.identityLookup store hello = .unknown := by
    unfold Authority.identityLookup at hu ⊢
    split at hu
    · cases hu
    · rename_i hsig
      rw [if_neg hsig, hnone]
      split at hu
      · split at hu <;> cases hu
      · exact hu
  simp only [Authority.identityValidate, hlookup]

theorem identityEnroll_refused {store : AgentStore}
    (h : store.refusal hello.agentPubKey (auth.agentID hello.agentPubKey) hello.enrollTicket now =
      some e) (written : Bool) :
    auth.identityEnroll store hello now written = (.error (.enroll e), store) := by
  simp only [Authority.identityEnroll, AgentStore.enroll_refused h written]

theorem Inv.enroll (h : v.Inv auth s) (hp : v.pending n = some (c, u))
    (hC : v.Undisturbed auth (.enroll n)) (hs : v.step auth (.enroll n) = some w) :
    w.Inv auth s := by
  simp only [step, hp, Option.some.injEq] at hs
  subst w
  have hunknown := h.unknown n c u hp
  constructor
  · have hseen : ∀ x, (∃ m d, Function.update v.pending n none m = some (d, x)) →
        ∃ m d, v.pending m = some (d, x) := by
      rintro x ⟨m, d, hm⟩
      obtain ⟨-, hnone⟩ | hm := update_pending hm
      · cases hnone
      · exact ⟨m, d, hm⟩
    obtain hnone | ⟨hsome, hsame⟩ := hC (c, u) hp
    · refine (h.linear.now ?_).mono fun x hx => .inl (hseen x hx)
      simp only [Authority.whole, identityValidate_unknown hunknown hnone]
    · obtain ⟨e, he⟩ := Option.isSome_iff_exists.1 hsome
      simp only [identityEnroll_refused (hsame.trans he)]
      refine (h.linear.then ⟨n, c, hp⟩ ?_).mono fun x hx => .inl (hseen x hx)
      simp only [Authority.whole, Authority.identityValidate, hunknown, identityEnroll_refused he]
  · intro m d x hm
    obtain ⟨-, hnone⟩ | hm := update_pending hm
    · cases hnone
    · exact h.unknown m d x hm

theorem Inv.lookup (h : v.Inv auth s) (hs : v.step auth (.lookup n c) = some w) :
    w.Inv auth s := by
  simp only [step] at hs
  split at hs
  · cases hs
  · split at hs
    · rename_i r hr
      obtain rfl := Option.some.inj hs
      refine ⟨h.linear.now ?_, h.unknown⟩
      simp only [Authority.whole, Authority.identityValidate, hr]
    · rename_i hu
      obtain rfl := Option.some.inj hs
      constructor
      · refine h.linear.mono ?_
        rintro x ⟨m, d, hm⟩
        obtain ⟨-, hnew⟩ | hm := update_pending hm
        · cases hnew
          exact .inr rfl
        · exact .inl ⟨m, d, hm⟩
      · intro m d x hm
        obtain ⟨-, hnew⟩ | hm := update_pending hm
        · cases hnew
          exact hu
        · exact h.unknown m d x hm

theorem Inv.step (h : v.Inv auth s) (hC : v.Undisturbed auth l) (hs : v.step auth l = some w) :
    w.Inv auth s := by
  cases l with
  | lookup n c => exact h.lookup hs
  | enroll n =>
    cases hp : v.pending n with
    | none => simp only [Validating.step, hp, reduceCtorEq] at hs
    | some p => exact h.enroll hp hC hs
  | manage op written =>
    simp only [Validating.step] at hs
    split at hs
    · cases hs
    · obtain rfl := Option.some.inj hs
      exact ⟨h.linear.now rfl, h.unknown⟩

end Validating

/-- Along every run in which enrollments are undisturbed, in any interleaving of validations with
the operator's calls, the replies and the store are those of some order of the whole calls. -/
theorem validations_atomic (auth : Authority) (s : AgentStore) (steps : List ValidatingStep)
    (h : Runs.Along (Validating.step auth) (Validating.Undisturbed auth) (Validating.start s)
      steps) :
    Runs.Always (Validating.step auth) (Validating.Atomic auth s) (Validating.start s) steps :=
  Runs.always_of_invariant (fun _ _ _ hv hC hs => hv.step hC hs) (fun _ hv => hv.linear.linear)
    (Validating.inv_start auth s) h

/-- A store with one single-use ticket for `joinHello`. -/
def ticketed : AgentStore := (AgentStore.empty.issueEnrollment "ticket" false none ⟨[], []⟩ true).2

def joinCall : ValidateCall := ⟨joinHello, 0, true⟩

/-- A key joins, comes back with its spent ticket, and is revoked. -/
theorem validations_atomic_join :
    Runs.Always (Validating.step keyAuthority) (Validating.Atomic keyAuthority ticketed)
      (Validating.start ticketed)
      [.lookup 1 joinCall, .enroll 1, .lookup 2 joinCall,
        .manage (.revoke (keyAuthority.agentID sampleKey)) true, .lookup 3 joinCall] :=
  validations_atomic _ _ _ (by decide)

def WholeReply.accepted : WholeReply → Bool
  | .validated (.ok _) => true
  | _ => false

/-- Two hellos of one key with one single-use ticket: both look the key up before either enrolls,
and the second is told that its ticket is spent. In turn, both would be let in. -/
theorem twin_hello_refused :
    ¬Runs.Always (Validating.step keyAuthority) (Validating.Atomic keyAuthority ticketed)
      (Validating.start ticketed) [.lookup 1 joinCall, .lookup 2 joinCall, .enroll 1,
        .enroll 2] := by
  intro h
  obtain ⟨-, h⟩ := (Runs.always_iff rfl).1 h
  obtain ⟨-, h⟩ := (Runs.always_iff rfl).1 h
  obtain ⟨-, h⟩ := (Runs.always_iff rfl).1 h
  obtain ⟨-, h⟩ := (Runs.always_iff rfl).1 h
  obtain ⟨he, -⟩ | ⟨-, he⟩ := Runs.Linear.twins h
  · exact absurd (congrArg WholeReply.accepted he) (by decide)
  · exact absurd (congrArg WholeReply.accepted he) (by decide)

end ProxyForward

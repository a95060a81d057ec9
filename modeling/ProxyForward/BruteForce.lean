import ProxyForward.Auth
import ProxyForward.AuthLimiter

namespace ProxyForward.AuthLimit
set_option autoImplicit true
open Slices Runs

def errCodeBadToken : String := "bad_token"
def errCodeRevoked : String := "revoked"

/-- The reply to a refused hello; the flag says that the refusal counts as a failure. A hello
without an agent id has got past its token, so it does not. -/
def authErrorReply : ValidateError → String × String × Bool
  | .revoked =>
    (errCodeRevoked, "this gateway revoked this agent — re-pair with a fresh code", true)
  | .enroll .ticketUnknown =>
    (errCodeBadToken, "pairing code not recognized (it may have been rotated)", true)
  | .enroll .ticketConsumed =>
    (errCodeBadToken, "this pairing code was already used — ask for a fresh one", true)
  | .enroll .ticketExpired =>
    (errCodeBadToken, "this pairing code has expired — ask for a fresh one", true)
  | .missingAgentID => (errCodeBadToken, "hello is missing agentId", false)
  | .badToken | .reservedAgentID | .enroll _ =>
    (errCodeBadToken, "invalid token — re-pair with the gateway's current pairing code", true)

/-- The validation refuses the credential of the hello. -/
def countFail (e : ValidateError) : Bool := (authErrorReply e).2.2

/-- Where a handler stands before authentication. `failing` has a failure to record, of a credential
refused at that time or of a connection without one. -/
inductive Phase where
  | accepted
  | opening
  | reading
  | failing (refusedAt : Option Int)
  | left
  deriving DecidableEq, Repr

structure Handler where
  ip : String
  quic : Bool
  phase : Phase
  deriving DecidableEq, Repr

/-- What comes of reading the first frame, up to the answer of the validator. -/
inductive Received where
  | unread
  | notHello
  | badHello
  | otherVersion
  | hello (answer : Except ValidateError Identity)

def Received.next (now : Int) : Received → Phase
  | .unread | .notHello | .badHello => .failing none
  | .otherVersion | .hello (.ok _) => .left
  | .hello (.error e) => if countFail e then .failing (some now) else .left

/-- The refusal of a credential, if this is one. -/
def Received.refusal (ip : String) (now : Int) : Received → List (String × Int)
  | .hello (.error e) => if countFail e then [(ip, now)] else []
  | _ => []

/-- The pre-auth handlers of both accept paths, which share one limiter. -/
structure PreAuth where
  limiter : AuthLimiter
  clock : Int
  handlers : List Handler
  /-- The credentials refused so far and when. -/
  refused : List (String × Int)

inductive Label where
  | accept (ip : String) (quic : Bool)
  | allow (i : Nat) (now : Int)
  | opened (i : Nat) (ok : Bool)
  | received (i : Nat) (now : Int) (r : Received)
  | fail (i : Nat) (now stamp : Int) (visits : List (String × Int))

namespace PreAuth

def fresh (perMin clock : Int) : PreAuth := ⟨newAuthLimiter perMin, clock, [], []⟩

def put (s : PreAuth) (i : Nat) (h : Handler) (phase : Phase) : PreAuth :=
  { s with handlers := s.handlers.set i { h with phase } }

/-- The steps of `handleControlConn` and `handleQUICSession`; only the latter waits for a stream
before it reads. -/
def step (spare : List Int → List Int) (s : PreAuth) : Label → Option PreAuth
  | .accept ip quic => some { s with handlers := s.handlers ++ [⟨ip, quic, .accepted⟩] }
  | .allow i now => do
    let h ← s.handlers[i]?
    if h.phase = .accepted ∧ s.clock ≤ now then
      let (ok, limiter) := s.limiter.allow h.ip now
      let phase := if ok then (if h.quic then .opening else .reading) else .left
      some ({ s with limiter, clock := now }.put i h phase)
    else none
  | .opened i ok => do
    let h ← s.handlers[i]?
    if h.phase = .opening then some (s.put i h (if ok then .reading else .failing none))
    else none
  | .received i now r => do
    let h ← s.handlers[i]?
    if h.phase = .reading ∧ s.clock ≤ now then
      some ({ s with clock := now, refused := r.refusal h.ip now ++ s.refused }.put i h
        (r.next now))
    else none
  | .fail i now stamp visits => do
    let h ← s.handlers[i]?
    let call := Call.fail h.ip now stamp visits
    match h.phase with
    | .failing _ =>
      if (s.clock :: call.readings).Pairwise (· ≤ ·) then do
        let limiter ← AuthLimit.step spare s.limiter call
        some ({ s with limiter, clock := call.readings.foldr max s.clock }.put i h .left)
      else none
    | _ => none

/-- The refusals of an IP's credentials in the minute that ends at `t`. -/
def refusedIn (s : PreAuth) (ip : String) (t : Int) : Nat :=
  s.refused.countP fun r => r.1 = ip && (t - minute < r.2 && r.2 ≤ t)

end PreAuth

/-- The handler is past its check and has not yet recorded or passed. -/
def Handler.inFlight (ip : String) (h : Handler) : Bool :=
  h.ip = ip && match h.phase with
    | .accepted | .left => false
    | .opening | .reading | .failing _ => true

namespace PreAuth

def inFlight (s : PreAuth) (ip : String) : Nat := s.handlers.countP (Handler.inFlight ip)

/-- The failures recorded for an IP that are younger than `c`. -/
def heldAfter (s : PreAuth) (ip : String) (c : Int) : Nat :=
  (s.limiter.held ip).countP fun t => c < t

/-- No connection passes the check while the recorded failures of its IP leave room only for the
connections already past it. -/
def Room (s : PreAuth) : Label → Prop
  | .allow i now =>
    ∀ h ∈ s.handlers[i]?,
      (s.heldAfter h.ip (now - minute) : Int) < s.limiter.perMin →
        (s.heldAfter h.ip (now - minute) + s.inFlight h.ip : Int) < s.limiter.perMin
  | _ => True

instance (s : PreAuth) (l : Label) : Decidable (s.Room l) :=
  match l with
  | .allow _ _ => inferInstanceAs (Decidable (∀ h ∈ (_ : Option Handler), _ → _))
  | .accept _ _ | .opened _ _ | .received _ _ _ | .fail _ _ _ _ => .isTrue trivial

/-- The refusals of an IP's credentials that are younger than `c`. -/
def refusedAfter (s : PreAuth) (ip : String) (c : Int) : Nat :=
  s.refused.countP fun r => r.1 = ip && c < r.2

end PreAuth

/-- The handler has yet to record a refusal that is younger than `c`. -/
def Handler.owes (ip : String) (c : Int) (h : Handler) : Bool :=
  h.ip = ip && match h.phase with
    | .failing (some t) => c < t
    | .accepted | .opening | .reading | .failing none | .left => false

theorem Handler.inFlight_of_owes {ip : String} {h : Handler} (ho : h.owes ip c = true) :
    h.inFlight ip = true := by
  obtain ⟨jp, quic, phase⟩ := h
  cases phase with
  | failing o =>
    simp only [Handler.owes, Bool.and_eq_true] at ho
    simp only [Handler.inFlight, ho.1, Bool.and_self]
  | _ => simp only [Handler.owes, Bool.and_false, Bool.false_eq_true] at ho

theorem countP_set_add {xs : List α} {i : Nat} (h : xs[i]? = some x) (p : α → Bool) (y : α) :
    (xs.set i y).countP p + (if p x then 1 else 0) = xs.countP p + (if p y then 1 else 0) := by
  obtain ⟨hi, hx⟩ := List.getElem?_eq_some_iff.1 h
  have hset := List.countP_set (p := p) (a := y) hi
  rw [hx] at hset
  have hpos : p x = true → 0 < xs.countP p := by
    intro hp
    exact List.countP_pos_iff.2 ⟨x, List.mem_of_getElem? h, hp⟩
  by_cases hp : p x = true
  · have h0 := hpos hp
    rw [if_pos hp] at hset ⊢
    omega
  · rw [if_neg hp] at hset ⊢
    omega

namespace PreAuth

theorem inFlight_put {s : PreAuth} (h : s.handlers[i]? = some x) (ip : String) (phase : Phase) :
    (s.put i x phase).inFlight ip + (if x.inFlight ip then 1 else 0) =
      s.inFlight ip + (if ({ x with phase } : Handler).inFlight ip then 1 else 0) :=
  countP_set_add h _ _

def owed (s : PreAuth) (ip : String) (c : Int) : Nat := s.handlers.countP (Handler.owes ip c)

theorem owed_put {s : PreAuth} (h : s.handlers[i]? = some x) (ip : String) (c : Int)
    (phase : Phase) :
    (s.put i x phase).owed ip c + (if x.owes ip c then 1 else 0) =
      s.owed ip c + (if ({ x with phase } : Handler).owes ip c then 1 else 0) :=
  countP_set_add h _ _

theorem owed_le_inFlight (s : PreAuth) (ip : String) (c : Int) : s.owed ip c ≤ s.inFlight ip :=
  List.countP_mono_left fun _ _ h => Handler.inFlight_of_owes h

/-- What holds between the steps of a gateway that admits `perMin` failures. -/
structure Inv (perMin : Int) (s : PreAuth) : Prop where
  owned : s.limiter.Owned
  limit : s.limiter.perMin = perMin
  window : s.limiter.window = minute
  /-- The connections past the check fit into what the recorded failures leave. -/
  budget : ∀ ip, (s.heldAfter ip (s.clock - minute) + s.inFlight ip : Int) ≤ perMin
  /-- A refusal is recorded, or its handler has yet to do so. -/
  linked : ∀ ip c, s.clock - minute ≤ c → s.refusedAfter ip c ≤ s.owed ip c + s.heldAfter ip c
  past : ∀ r ∈ s.refused, r.2 ≤ s.clock
  owesPast : ∀ h ∈ s.handlers, ∀ t, h.phase = .failing (some t) → t ≤ s.clock
  /-- The bound for the windows that have ended. -/
  ended : ∀ ip t, t < s.clock → (s.refusedIn ip t : Int) ≤ perMin

theorem inv_fresh (h : 0 ≤ perMin) (clock : Int) : Inv perMin (fresh perMin clock) where
  owned := AuthLimiter.owned_new perMin
  limit := rfl
  window := rfl
  budget _ := h
  linked _ _ _ := Nat.le_refl 0
  past := nofun
  owesPast := nofun
  ended _ _ _ := h

theorem refusedIn_le (s : PreAuth) (ip : String) (t : Int) :
    s.refusedIn ip t ≤ s.refusedAfter ip (t - minute) := by
  apply List.countP_mono_left
  intro r _ h
  simp only [Bool.and_eq_true, decide_eq_true_eq] at h ⊢
  exact ⟨h.1, h.2.1⟩

theorem heldAfter_anti (s : PreAuth) (ip : String) {c d : Int} (h : c ≤ d) :
    s.heldAfter ip d ≤ s.heldAfter ip c := by
  apply List.countP_mono_left
  intro t _ ht
  rw [decide_eq_true_eq] at ht ⊢
  exact lt_of_le_of_lt h ht

theorem Inv.capped {s : PreAuth} (hi : Inv perMin s) (ip : String) (t : Int) :
    (s.refusedIn ip t : Int) ≤ perMin := by
  by_cases ht : t < s.clock
  · exact hi.ended ip t ht
  · have hc : s.clock - minute ≤ t - minute := Int.sub_le_sub_right (Int.not_lt.1 ht) minute
    have h1 := s.refusedIn_le ip t
    have h2 := hi.linked ip (t - minute) hc
    have h3 := s.owed_le_inFlight ip (t - minute)
    have h4 := s.heldAfter_anti ip hc
    have h5 := hi.budget ip
    omega

theorem Inv.advance {s : PreAuth} (hi : Inv perMin s) (h : s.clock ≤ now) :
    Inv perMin { s with clock := now } := by
  have hc : s.clock - minute ≤ now - minute := Int.sub_le_sub_right h minute
  refine ⟨hi.owned, hi.limit, hi.window, ?_, ?_, ?_, ?_, ?_⟩
  · intro ip
    have h1 := hi.budget ip
    have h2 := s.heldAfter_anti ip hc
    change (s.heldAfter ip (now - minute) + s.inFlight ip : Int) ≤ perMin
    omega
  · intro ip c hle
    exact hi.linked ip c (le_trans hc hle)
  · intro r hr
    exact le_trans (hi.past r hr) h
  · intro x hx t ht
    exact le_trans (hi.owesPast x hx t ht) h
  · intro ip t _
    exact hi.capped ip t

theorem mem_put {s : PreAuth} {i : Nat} {x h : Handler} (hm : h ∈ (s.put i x phase).handlers) :
    h ∈ s.handlers ∨ h = { x with phase } := by
  obtain hm | hm := List.mem_or_eq_of_mem_set hm
  · exact .inl hm
  · exact .inr hm

/-- One handler moves. What it brings past the check fits, and a refusal that is new or that it no
longer owes is recorded. -/
theorem Inv.move {s t : PreAuth} (hi : Inv perMin s) (h : s.handlers[i]? = some x)
    (hhandlers : t.handlers = s.handlers) (hclock : t.clock = s.clock)
    (howned : t.limiter.Owned) (hlimit : t.limiter.perMin = perMin)
    (hwindow : t.limiter.window = minute)
    (hbudget : ∀ ip, (t.heldAfter ip (t.clock - minute) + s.inFlight ip +
      (if ({ x with phase } : Handler).inFlight ip then 1 else 0 : Nat) : Int) ≤
        perMin + (if x.inFlight ip then 1 else 0 : Nat))
    (hlinked : ∀ ip c, t.clock - minute ≤ c →
      t.refusedAfter ip c + s.heldAfter ip c + (if x.owes ip c then 1 else 0) ≤
        s.refusedAfter ip c + t.heldAfter ip c +
          if ({ x with phase } : Handler).owes ip c then 1 else 0)
    (hpast : ∀ r ∈ t.refused, r.2 ≤ t.clock)
    (hnew : ∀ at', phase = .failing (some at') → at' ≤ t.clock)
    (hended : ∀ ip at', at' < t.clock → (t.refusedIn ip at' : Int) ≤ perMin) :
    Inv perMin (t.put i x phase) := by
  have ht : t.handlers[i]? = some x := by rw [hhandlers, h]
  refine ⟨howned, hlimit, hwindow, ?_, ?_, hpast, ?_, hended⟩
  · intro ip
    have hcount := inFlight_put ht ip phase
    have hsame : t.inFlight ip = s.inFlight ip := by rw [inFlight, inFlight, hhandlers]
    have hfit := hbudget ip
    change (t.heldAfter ip (t.clock - minute) + (t.put i x phase).inFlight ip : Int) ≤ perMin
    omega
  · intro ip c hc
    have hcount := owed_put ht ip c phase
    have hsame : t.owed ip c = s.owed ip c := by rw [owed, owed, hhandlers]
    have hold := hi.linked ip c (by rw [← hclock]; exact hc)
    have hmoved := hlinked ip c hc
    change t.refusedAfter ip c ≤ (t.put i x phase).owed ip c + t.heldAfter ip c
    omega
  · intro y hy at' hat
    obtain hy | rfl := mem_put hy
    · rw [hhandlers] at hy
      exact le_of_le_of_eq (hi.owesPast y hy at' hat) hclock.symm
    · exact hnew at' hat

theorem Inv.put {s : PreAuth} (hi : Inv perMin s) (h : s.handlers[i]? = some x)
    (hfly : ∀ ip, (Handler.inFlight ip { x with phase }) = true → x.inFlight ip = true)
    (hold : ∀ ip c, x.owes ip c = false) (hnew : ∀ t, phase ≠ .failing (some t)) :
    Inv perMin (s.put i x phase) := by
  refine hi.move h rfl rfl hi.owned hi.limit hi.window ?_ ?_ hi.past ?_ hi.ended
  · intro ip
    have hbudget := hi.budget ip
    by_cases hx : (Handler.inFlight ip { x with phase }) = true
    · rw [if_pos hx, if_pos (hfly ip hx)]
      omega
    · rw [if_neg hx]
      split <;> omega
  · intro ip c hc
    rw [hold, if_neg Bool.false_ne_true]
    omega
  · exact fun t ht => absurd ht (hnew t)

theorem owes_of_not_inFlight {h : Handler} (hf : h.inFlight ip = false) (c : Int) :
    h.owes ip c = false := by
  by_contra ho
  rw [Handler.inFlight_of_owes (Bool.not_eq_false _ ▸ ho)] at hf
  cases hf

theorem Inv.accept {s : PreAuth} (hi : Inv perMin s) {h : Handler} (hh : h.phase = .accepted) :
    Inv perMin { s with handlers := s.handlers ++ [h] } := by
  have hown : ∀ ip, h.inFlight ip = false := by
    intro ip
    rw [Handler.inFlight, hh]
    exact Bool.and_false _
  have hfly : ∀ ip, (s.handlers ++ [h]).countP (Handler.inFlight ip) = s.inFlight ip := by
    intro ip
    rw [List.countP_append, List.countP_singleton, hown]
    rfl
  have howed : ∀ ip c, (s.handlers ++ [h]).countP (Handler.owes ip c) = s.owed ip c := by
    intro ip c
    rw [List.countP_append, List.countP_singleton, owes_of_not_inFlight (hown ip)]
    rfl
  refine ⟨hi.owned, hi.limit, hi.window, ?_, ?_, hi.past, ?_, hi.ended⟩
  · intro ip
    have h1 := hi.budget ip
    rw [← hfly] at h1
    exact h1
  · intro ip c hc
    have h1 := hi.linked ip c hc
    rw [← howed] at h1
    exact h1
  · intro y hy t ht
    obtain hy | hy := List.mem_append.1 hy
    · exact hi.owesPast y hy t ht
    · rw [List.mem_singleton.1 hy, hh] at ht
      cases ht

theorem heldAfter_call {s : PreAuth} {limiter : AuthLimiter} (ho : s.limiter.Owned)
    (hs : AuthLimit.step spare s.limiter call = some limiter)
    (hw : s.limiter.window = minute) (hc : ∀ t ∈ call.readings, t - minute ≤ c) (ip : String) :
    (limiter.held ip).countP (fun t => c < t) =
      s.heldAfter ip c + (failuresOf ip [call]).countP (fun t => c < t) := by
  obtain ⟨-, -, -, hheld⟩ := step_held (c := c) ho hs (by rw [hw]; exact hc)
  have h := congrArg List.length (hheld ip)
  rw [← List.countP_eq_length_filter, ← List.countP_eq_length_filter, List.countP_append] at h
  exact h

theorem Inv.allow {s : PreAuth} (hi : Inv perMin s) (h : s.handlers[i]? = some x)
    (hx : x.phase = .accepted) (hroom : s.Room (.allow i now)) (hclock : s.clock ≤ now) :
    Inv perMin (({ s with
        limiter := (s.limiter.allow x.ip now).2, clock := now } : PreAuth).put i x
      (if (s.limiter.allow x.ip now).1 then (if x.quic then .opening else .reading)
        else .left)) := by
  have hi' := hi.advance hclock
  have hheld : ∀ ip c, now - minute ≤ c →
      (((s.limiter.allow x.ip now).2.held ip).countP fun t => c < t) = s.heldAfter ip c := by
    intro ip c hc
    have hcall : AuthLimit.step id s.limiter (.allow x.ip now) =
        some (s.limiter.allow x.ip now).2 := rfl
    refine (heldAfter_call hi.owned hcall hi.window ?_ ip).trans (Nat.add_zero _)
    intro t ht
    rw [List.mem_singleton.1 ht]
    exact hc
  have hown : ∀ ip, x.inFlight ip = false := by
    intro ip
    rw [Handler.inFlight, hx]
    exact Bool.and_false _
  have howes : ∀ ip c, x.owes ip c = false := by
    intro ip c
    rw [Handler.owes, hx]
    exact Bool.and_false _
  have hstep := hi.owned.pruneLocked x.ip now
  -- Nothing of what a handler owes changes; at most one more is past the check.
  generalize hph : (if (s.limiter.allow x.ip now).1 then
    (if x.quic then Phase.opening else .reading) else .left) = phase
  have hnew : ∀ t, phase ≠ .failing (some t) := by
    intro t
    rw [← hph]
    split
    · split <;> nofun
    · nofun
  refine hi'.move h rfl rfl hstep.owned (hstep.perMin.trans hi.limit)
    (hstep.window.trans hi.window) ?_ ?_ hi'.past (fun t ht => absurd ht (hnew t)) hi'.ended
  · intro ip
    have hbudget := hi'.budget ip
    change (s.heldAfter ip (now - minute) + s.inFlight ip : Int) ≤ perMin at hbudget
    change ((((s.limiter.allow x.ip now).2.held ip).countP fun t => now - minute < t : Nat) +
      s.inFlight ip +
        (if (Handler.inFlight ip { x with phase }) = true then 1 else 0 : Nat) : Int) ≤
      perMin + (if x.inFlight ip = true then 1 else 0 : Nat)
    rw [hheld ip _ (le_refl _), hown, if_neg Bool.false_ne_true]
    by_cases hf : (Handler.inFlight ip { x with phase }) = true
    · have hip : x.ip = ip := by
        rw [Handler.inFlight, Bool.and_eq_true, decide_eq_true_eq] at hf
        exact hf.1
      have hok : (s.limiter.allow x.ip now).1 = true := by
        by_contra hno
        rw [if_neg hno] at hph
        rw [← hph, Handler.inFlight, Bool.and_false] at hf
        cases hf
      have hlt := (AuthLimiter.allow_fst hi.owned).1 hok
      rw [hi.window, ← List.countP_eq_length_filter] at hlt
      have hle := hroom x h hlt
      rw [hi.limit, hip] at hle
      rw [if_pos hf]
      omega
    · rw [if_neg hf]
      omega
  · intro ip c hc
    change s.refusedAfter ip c + s.heldAfter ip c + (if x.owes ip c = true then 1 else 0) ≤
      s.refusedAfter ip c + (((s.limiter.allow x.ip now).2.held ip).countP fun t => c < t) + _
    rw [hheld ip c hc, howes, if_neg Bool.false_ne_true]
    omega

theorem refusal_next (r : Received) (ip : String) (now : Int) :
    (r.refusal ip now = [] ∧ ∀ t, r.next now ≠ .failing (some t)) ∨
      (r.refusal ip now = [(ip, now)] ∧ r.next now = .failing (some now)) := by
  cases r with
  | hello answer =>
    cases answer with
    | ok _ => exact .inl ⟨rfl, nofun⟩
    | error e =>
      by_cases hc : countFail e = true
      · exact .inr ⟨if_pos hc, if_pos hc⟩
      · have hleft : Received.next now (.hello (.error e)) = .left := if_neg hc
        refine .inl ⟨if_neg hc, ?_⟩
        rw [hleft]
        nofun
  | _ => exact .inl ⟨rfl, nofun⟩

theorem inFlight_eq {h : Handler} (hp : h.phase ≠ .accepted ∧ h.phase ≠ .left) (ip : String) :
    h.inFlight ip = decide (h.ip = ip) := by
  obtain ⟨jp, quic, phase⟩ := h
  cases phase with
  | accepted => exact absurd rfl hp.1
  | left => exact absurd rfl hp.2
  | _ => exact Bool.and_true _

theorem Inv.received {s : PreAuth} (hi : Inv perMin s) (h : s.handlers[i]? = some x)
    (hx : x.phase = .reading) (hclock : s.clock ≤ now) (r : Received) :
    Inv perMin (({ s with
        clock := now, refused := r.refusal x.ip now ++ s.refused } : PreAuth).put i x
      (r.next now)) := by
  have hi' := hi.advance hclock
  have hfly : ∀ ip, x.inFlight ip = decide (x.ip = ip) :=
    inFlight_eq (by rw [hx]; exact ⟨nofun, nofun⟩)
  have howes : ∀ ip c, x.owes ip c = false := by
    intro ip c
    rw [Handler.owes, hx]
    exact Bool.and_false _
  obtain ⟨href, hnext⟩ | ⟨href, hnext⟩ := refusal_next r x.ip now
  · rw [href, List.nil_append]
    apply hi'.put h
    · intro ip hf
      rw [Handler.inFlight, Bool.and_eq_true] at hf
      rw [hfly]
      exact hf.1
    · exact howes
    · exact hnext
  · rw [href, hnext, List.singleton_append]
    refine hi'.move h rfl rfl hi.owned hi.limit hi.window ?_ ?_ ?_ ?_ ?_
    · intro ip
      have hbudget := hi'.budget ip
      rw [hfly, inFlight_eq (h := { x with phase := .failing (some now) }) ⟨nofun, nofun⟩]
      exact Int.add_le_add_right hbudget _
    · intro ip c hc
      rw [howes, if_neg Bool.false_ne_true]
      change ((x.ip, now) :: s.refused).countP (fun r => r.1 = ip && c < r.2) + s.heldAfter ip c ≤
        s.refused.countP (fun r => r.1 = ip && c < r.2) + s.heldAfter ip c +
          if (decide (x.ip = ip) && decide (c < now)) = true then 1 else 0
      rw [List.countP_cons, Nat.add_right_comm]
    · intro r hr
      obtain rfl | hr := List.mem_cons.1 hr
      · exact le_refl now
      · exact hi'.past r hr
    · intro t ht
      cases ht
      exact le_refl now
    · intro ip t ht
      have hbefore := hi'.ended ip t ht
      have hout : decide (now ≤ t) = false := decide_eq_false (Int.not_le.2 ht)
      change (((x.ip, now) :: s.refused).countP
        (fun r => r.1 = ip && (t - minute < r.2 && r.2 ≤ t)) : Int) ≤ perMin
      rw [List.countP_cons, hout, Bool.and_false, Bool.and_false]
      exact hbefore

theorem le_foldr_max (ts : List Int) (b : Int) :
    b ≤ ts.foldr max b ∧ ∀ t ∈ ts, t ≤ ts.foldr max b := by
  induction ts with
  | nil => exact ⟨le_refl b, nofun⟩
  | cons u ts ih =>
    rw [List.foldr_cons]
    refine ⟨le_max_of_le_right ih.1, ?_⟩
    intro t ht
    obtain rfl | ht := List.mem_cons.1 ht
    · exact le_max_left _ _
    · exact le_max_of_le_right (ih.2 t ht)

theorem Inv.fail {s : PreAuth} {limiter : AuthLimiter} (hi : Inv perMin s)
    (h : s.handlers[i]? = some x) (hx : x.phase = .failing o)
    (hsorted : (s.clock :: (Call.fail x.ip now stamp visits).readings).Pairwise (· ≤ ·))
    (hs : AuthLimit.step spare s.limiter (.fail x.ip now stamp visits) = some limiter) :
    Inv perMin (({ s with
        limiter
        clock := (Call.fail x.ip now stamp visits).readings.foldr max s.clock } : PreAuth).put
      i x .left) := by
  obtain ⟨hclock, hle⟩ := le_foldr_max (Call.fail x.ip now stamp visits).readings s.clock
  have hstamp : s.clock ≤ stamp :=
    List.rel_of_pairwise_cons hsorted (List.mem_cons_of_mem _ List.mem_cons_self)
  generalize (Call.fail x.ip now stamp visits).readings.foldr max s.clock = clock at hclock hle ⊢
  have hi' := hi.advance hclock
  have hc : ∀ c, clock - minute ≤ c →
      ∀ t ∈ (Call.fail x.ip now stamp visits).readings, t - minute ≤ c := by
    intro c hc t ht
    exact le_trans (Int.sub_le_sub_right (hle t ht) minute) hc
  obtain ⟨ho, hper, hwin, -⟩ := step_held (c := clock - minute) hi.owned hs (by
    rw [hi.window]
    exact hc _ (le_refl _))
  have hheld : ∀ ip c, clock - minute ≤ c → ((limiter.held ip).countP fun t => c < t) =
      s.heldAfter ip c + if x.ip = ip ∧ c < stamp then 1 else 0 := by
    intro ip c hle
    rw [heldAfter_call hi.owned hs hi.window (hc c hle)]
    by_cases hip : x.ip = ip
    · simp only [failuresOf, List.filterMap_cons, List.filterMap_nil, hip, if_true, true_and,
        List.countP_singleton, decide_eq_true_eq]
    · simp only [failuresOf, List.filterMap_cons, List.filterMap_nil, hip, if_false, false_and,
        List.countP_nil]
  have hfly : ∀ ip, x.inFlight ip = decide (x.ip = ip) := by
    apply inFlight_eq
    rw [hx]
    constructor
    · intro hnew
      cases hnew
    · intro hgone
      cases hgone
  have hleft : ∀ ip, (Handler.inFlight ip { x with phase := .left }) = false :=
    fun ip => Bool.and_false _
  refine hi'.move h rfl rfl ho (hper.trans hi.limit) (hwin.trans hi.window) ?_ ?_ hi'.past
    (fun _ hat => absurd hat Phase.noConfusion) hi'.ended
  · intro ip
    have hbudget := hi'.budget ip
    change (s.heldAfter ip (clock - minute) + s.inFlight ip : Int) ≤ perMin at hbudget
    change (((limiter.held ip).countP fun t => clock - minute < t : Nat) + s.inFlight ip +
      (if (Handler.inFlight ip { x with phase := .left }) = true then 1 else 0 : Nat) : Int) ≤
        perMin + (if x.inFlight ip = true then 1 else 0 : Nat)
    rw [hheld ip _ (le_refl _), hleft, if_neg Bool.false_ne_true, hfly]
    by_cases hip : x.ip = ip
    · simp only [hip, decide_true, if_true, true_and]
      split <;> omega
    · simp only [hip, decide_false, Bool.false_eq_true, if_false, false_and]
      omega
  · intro ip c hle
    change s.refusedAfter ip c + s.heldAfter ip c + (if x.owes ip c = true then 1 else 0) ≤
      s.refusedAfter ip c + ((limiter.held ip).countP fun t => c < t) + _
    rw [hheld ip c hle]
    -- What this handler owed is what the limiter has got.
    have hpaid : x.owes ip c = true → x.ip = ip ∧ c < stamp := by
      intro howes
      unfold Handler.owes at howes
      rw [Bool.and_eq_true, decide_eq_true_eq, hx] at howes
      refine ⟨howes.1, ?_⟩
      cases o with
      | none => cases howes.2
      | some t =>
        have ht := hi.owesPast x (List.mem_of_getElem? h) t hx
        exact lt_of_lt_of_le (of_decide_eq_true howes.2) (le_trans ht hstamp)
    by_cases howes : x.owes ip c = true
    · rw [if_pos howes, if_pos (hpaid howes)]
      omega
    · rw [if_neg howes]
      omega

theorem Inv.step {s t : PreAuth} (hi : Inv perMin s) (hroom : s.Room l)
    (hs : PreAuth.step spare s l = some t) : Inv perMin t := by
  cases l with
  | accept ip quic =>
    cases hs
    exact hi.accept rfl
  | allow i now =>
    obtain ⟨x, h, hs⟩ := Option.bind_eq_some_iff.1 hs
    split at hs
    · rename_i hg
      cases hs
      exact hi.allow h hg.1 hroom hg.2
    · cases hs
  | opened i ok =>
    obtain ⟨x, h, hs⟩ := Option.bind_eq_some_iff.1 hs
    split at hs
    · rename_i hg
      cases hs
      apply hi.put h
      · intro ip hf
        rw [Handler.inFlight, Bool.and_eq_true] at hf
        rw [inFlight_eq (by rw [hg]; exact ⟨nofun, nofun⟩)]
        exact hf.1
      · intro ip c
        rw [Handler.owes, hg]
        exact Bool.and_false _
      · intro t
        split <;> nofun
    · cases hs
  | received i now r =>
    obtain ⟨x, h, hs⟩ := Option.bind_eq_some_iff.1 hs
    split at hs
    · rename_i hg
      cases hs
      exact hi.received h hg.1 hg.2 r
    · cases hs
  | fail i now stamp visits =>
    obtain ⟨x, h, hs⟩ := Option.bind_eq_some_iff.1 hs
    simp only at hs
    split at hs
    · rename_i o hx
      split at hs
      · rename_i hsorted
        obtain ⟨limiter, hl, hs⟩ := Option.bind_eq_some_iff.1 hs
        cases hs
        exact hi.fail h hx hsorted hl
      · cases hs
    · cases hs

/-- Where no connection passes the check beyond the room that those past it leave, no more than
`perMin` credentials of an IP are refused in any minute, in any state reached. -/
theorem refusals_capped (hp : 0 ≤ perMin) (clock : Int)
    (hroom : Along (step spare) Room (fresh perMin clock) ls) :
    Always (step spare) (fun s => ∀ ip t, (s.refusedIn ip t : Int) ≤ perMin)
      (fresh perMin clock) ls :=
  always_of_invariant (fun _ _ _ hi hr hs => Inv.step hi hr hs) (fun _ hi => hi.capped)
    (inv_fresh hp clock) hroom

/-- A hello that guesses a token. -/
def guess : Received :=
  .hello (Authority.sharedTokenValidate "right" ⟨"wrong", "agent", "", "", "", [], "", 0⟩)

/-- Guesses one after the other: the second connection does not pass the check. -/
theorem one_guess_a_minute :
    Always (step fun xs => xs) (fun s => ∀ ip t, (s.refusedIn ip t : Int) ≤ 1) (fresh 1 0)
      [.accept "ip" false, .allow 0 0, .received 0 1 guess, .fail 0 2 2 [],
        .accept "ip" true, .allow 1 3] :=
  refusals_capped (by decide) 0 (by decide)

/-- Two connections pass a check for one failure, on either accept path, and both guess. -/
theorem parallel_guesses_pass :
    ¬∀ (spare : List Int → List Int) (perMin clock : Int) (ls : List Label), 0 < perMin →
      Always (step spare) (fun s => ∀ ip t, (s.refusedIn ip t : Int) ≤ perMin)
        (fresh perMin clock) ls := by
  intro h
  have hrun := h (fun xs => xs) 1 0
    [.accept "ip" false, .accept "ip" true, .allow 0 0, .allow 1 0, .opened 1 true,
      .received 0 1 guess, .received 1 1 guess] (by decide)
  have htwo := hrun.final (reaches_of_final rfl) "ip" 1
  exact absurd htwo (by decide)

end PreAuth
end ProxyForward.AuthLimit

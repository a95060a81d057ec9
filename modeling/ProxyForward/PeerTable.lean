import ProxyForward.Config
import ProxyForward.IpcPipe
import ProxyForward.Recency
import ProxyForward.Runs

namespace ProxyForward.Peers
open Ipc Recency
set_option autoImplicit true

def maxPeers : Nat := 512

/-- No time of the clock reaches the one that a scan starts from. -/
def maxInt64 : Int := 9223372036854775807

/-- A client is one peer across reconnects. -/
def peerIP (addr : String) : String :=
  match splitHostPort addr with
  | .ok (host, _) => host
  | .error _ => addr

/-- One look at a peer of the scan for the one seen longest ago. -/
def older (found : Int × String) (p : PeerStat) : Int × String :=
  if p.lastSeen < found.1 then (p.lastSeen, p.ip) else found

/-- The peers in the order of the map's iteration, with room for one. -/
def evictPeerLocked (peers : List PeerStat) : List PeerStat :=
  if peers.length < maxPeers then peers
  else
    let (_, victim) := peers.foldl older (maxInt64, "")
    peers.filter fun p => p.ip ≠ victim

/-- The peers with a record for this one's address: its own, or this one in the room made. -/
def withPeer (peers : List PeerStat) (fresh : PeerStat) : List PeerStat :=
  if fresh.ip ∈ peers.map PeerStat.ip then peers else evictPeerLocked peers ++ [fresh]

def update (peers : List PeerStat) (ip : String) (f : PeerStat → PeerStat) : List PeerStat :=
  peers.map fun p => if p.ip = ip then f p else p

def ConnOpened (peers : List PeerStat) (addr : String) (now : Int) : List PeerStat :=
  let ip := peerIP addr
  update (withPeer peers ⟨ip, now, 0, 0, 0, 0⟩) ip fun p =>
    { p with lastSeen := now, totalConns := p.totalConns + 1 }

def ConnClosed (peers : List PeerStat) (addr : String) (bytesIn bytesOut now : Int) :
    List PeerStat :=
  let ip := peerIP addr
  update (withPeer peers ⟨ip, now, 0, 0, 0, 1⟩) ip fun p =>
    { p with
      lastSeen := now
      totalBytesIn := p.totalBytesIn + bytesIn
      totalBytesOut := p.totalBytesOut + bytesOut }

/-- The rows that are restored, the most recently seen first. -/
def loadPeers (rows : List PeerStat) : List PeerStat :=
  (rows.mergeSort fun p q => decide (q.lastSeen ≤ p.lastSeen)).take maxPeers

/-- A connection that was opened, or closed with these bytes. -/
inductive Event
  | opened (addr : String) (now : Int)
  | closed (addr : String) (bytesIn bytesOut now : Int)
  deriving DecidableEq, Repr

namespace Event

def ip : Event → String
  | opened addr _ | closed addr _ _ _ => peerIP addr

def now : Event → Int
  | opened _ now | closed _ _ _ now => now

def opens : Event → Int
  | opened .. => 1
  | closed .. => 0

def bytesIn : Event → Int
  | opened .. => 0
  | closed _ bytesIn _ _ => bytesIn

def bytesOut : Event → Int
  | opened .. => 0
  | closed _ _ bytesOut _ => bytesOut

def record (peers : List PeerStat) : Event → List PeerStat
  | opened addr now => ConnOpened peers addr now
  | closed addr bytesIn bytesOut now => ConnClosed peers addr bytesIn bytesOut now

end Event

/-- The table in memory and the one on disk, each with what happened up to it, the newest first. -/
structure Store where
  peers : List PeerStat
  log : List Event
  rows : List PeerStat
  rowsLog : List Event

inductive Step
  | event (e : Event)
  | shuffle (peers : List PeerStat)
  | flush
  | restart

namespace Store

def start : Store := ⟨[], [], [], []⟩

/-- The wall clock may step back. A map is iterated in any order. A restart restores what the last
flush has written. -/
def step (s : Store) : Step → Option Store
  | .event e =>
    if e.now < maxInt64 then some { s with peers := e.record s.peers, log := e :: s.log } else none
  | .shuffle peers => if peers.Perm s.peers then some { s with peers } else none
  | .flush => some { s with rows := s.peers, rowsLog := s.log }
  | .restart => some { s with peers := loadPeers s.rows, log := s.rowsLog }

end Store

def uses (log : List Event) : List (String × Int) := log.map fun e => (e.ip, e.now)

def held (peers : List PeerStat) : List (String × Int) := peers.map fun p => (p.ip, p.lastSeen)

/-- What the events of one address add up to. -/
def total (f : Event → Int) (ip : String) (log : List Event) : Int :=
  ((log.filter fun e => e.ip = ip).map f).sum

/-- A record is of all that its address did since it first came, or came back after it had to make
way: one connection for the first event, and one for each that was opened after. -/
def Accounts (log : List Event) (p : PeerStat) : Prop :=
  ∃ recent first past, log = recent ++ first :: past ∧ first.ip = p.ip ∧
    Crowded maxPeers (uses past) p.ip ∧ p.firstSeen = first.now ∧
    p.totalConns = 1 + total Event.opens p.ip recent ∧
    p.totalBytesIn = total Event.bytesIn p.ip (recent ++ [first]) ∧
    p.totalBytesOut = total Event.bytesOut p.ip (recent ++ [first])

/-- At most so many peers, one for an address, the most recently seen, each with its account. -/
structure Ledger (peers : List PeerStat) (log : List Event) : Prop where
  holds : Holds maxPeers (uses log) (held peers)
  accounts : ∀ p ∈ peers, Accounts log p
  early : ∀ p ∈ peers, p.lastSeen < maxInt64

@[simp] theorem uses_cons (e : Event) (log : List Event) :
    uses (e :: log) = (e.ip, e.now) :: uses log := rfl

@[simp] theorem held_append (ps qs : List PeerStat) : held (ps ++ qs) = held ps ++ held qs :=
  List.map_append

theorem peerIP_ofList {host port : List Char} (hhost : ':' ∉ host ∧ '[' ∉ host ∧ ']' ∉ host)
    (hport : ':' ∉ port ∧ '[' ∉ port ∧ ']' ∉ port) :
    peerIP (String.ofList (host ++ ':' :: port)) = String.ofList host := by
  obtain ⟨hcolon, hopen, hclose⟩ := hhost
  obtain ⟨hcolon', hopen', hclose'⟩ := hport
  have hrev : (host ++ ':' :: port).reverse = port.reverse ++ ':' :: host.reverse := by
    rw [List.reverse_append, List.reverse_cons, List.append_assoc, List.singleton_append]
  have hdrop : (port.reverse ++ ':' :: host.reverse).dropWhile (· ≠ ':') = ':' :: host.reverse := by
    rw [List.dropWhile_append_of_pos fun c hc => by
      simpa using fun heq : c = ':' => hcolon' (heq ▸ List.mem_reverse.1 hc)]
    rfl
  have hfirst : (host ++ ':' :: port).head? ≠ some '[' := by
    cases host with
    | nil => exact fun heq => absurd (Option.some.inj heq) (by decide)
    | cons c host =>
      intro heq
      exact hopen (Option.some.inj heq ▸ List.mem_cons_self)
  have hopens : '[' ∉ host ++ ':' :: port := by simpa [hopen] using hopen'
  have hcloses : ']' ∉ host ++ ':' :: port := by simpa [hclose] using hclose'
  have hbefore : ':' ∉ host.reverse := fun hc => hcolon (List.mem_reverse.1 hc)
  simp only [peerIP, splitHostPort, String.toList_ofList, hrev, hdrop, if_neg hfirst,
    if_neg hbefore, if_neg hopens, if_neg hcloses, List.reverse_reverse]

theorem keys_held (peers : List PeerStat) : (held peers).map Prod.fst = peers.map PeerStat.ip := by
  rw [held, List.map_map]
  rfl

theorem total_cons (f : Event → Int) (ip : String) (e : Event) (log : List Event) :
    total f ip (e :: log) = (if e.ip = ip then f e else 0) + total f ip log := by
  unfold total
  by_cases he : e.ip = ip
  · rw [List.filter_cons_of_pos (by simpa using he), List.map_cons, List.sum_cons, if_pos he]
  · rw [List.filter_cons_of_neg (by simpa using he), if_neg he, Int.zero_add]

namespace Event

/-- The record that an event starts from when its address has none. -/
def fresh (e : Event) : PeerStat := ⟨e.ip, e.now, 0, 0, 0, 1 - e.opens⟩

/-- What an event adds to a record. -/
def fold (e : Event) (p : PeerStat) : PeerStat :=
  { p with
    lastSeen := e.now
    totalBytesIn := p.totalBytesIn + e.bytesIn
    totalBytesOut := p.totalBytesOut + e.bytesOut
    totalConns := p.totalConns + e.opens }

theorem record_eq (e : Event) (peers : List PeerStat) :
    e.record peers = update (withPeer peers e.fresh) e.ip e.fold := by
  cases e with
  | opened addr now =>
    have hfold : (opened addr now).fold = fun p =>
        { p with lastSeen := now, totalConns := p.totalConns + 1 } := by
      funext p
      simp only [fold, Event.now, opens, bytesIn, bytesOut, Int.add_zero]
    simp only [record, ConnOpened, hfold, fresh, ip, opens, Event.now, sub_self]
  | closed addr bytesIn bytesOut now =>
    have hfold : (closed addr bytesIn bytesOut now).fold = fun p =>
        { p with
          lastSeen := now
          totalBytesIn := p.totalBytesIn + bytesIn
          totalBytesOut := p.totalBytesOut + bytesOut } := by
      funext p
      simp only [fold, Event.now, opens, Event.bytesIn, Event.bytesOut, Int.add_zero]
    simp only [record, ConnClosed, hfold, fresh, ip, opens, Event.now, sub_zero]

end Event

theorem foldl_older (peers : List PeerStat) (found : Int × String) :
    (peers.foldl older found).1 ≤ found.1 ∧
      (∀ p ∈ peers, (peers.foldl older found).1 ≤ p.lastSeen) ∧
      (peers.foldl older found = found ∨
        ∃ p ∈ peers, peers.foldl older found = (p.lastSeen, p.ip)) := by
  induction peers generalizing found with
  | nil => exact ⟨le_rfl, nofun, .inl rfl⟩
  | cons p peers ih =>
    obtain ⟨hfound, hpeers, hone⟩ := ih (older found p)
    rw [List.foldl_cons]
    have hp : (older found p).1 ≤ found.1 ∧ (older found p).1 ≤ p.lastSeen := by
      unfold older
      split
      · rename_i hlt
        exact ⟨hlt.le, le_rfl⟩
      · rename_i hge
        exact ⟨le_rfl, not_lt.1 hge⟩
    refine ⟨hfound.trans hp.1, List.forall_mem_cons.2 ⟨hfound.trans hp.2, hpeers⟩, ?_⟩
    obtain heq | ⟨q, hq, heq⟩ := hone
    · rw [heq]
      unfold older
      split
      · exact .inr ⟨p, List.mem_cons_self, rfl⟩
      · exact .inl rfl
    · exact .inr ⟨q, List.mem_cons_of_mem p hq, heq⟩

theorem evictPeerLocked_full {peers : List PeerStat} (hfull : maxPeers ≤ peers.length)
    (hearly : ∀ p ∈ peers, p.lastSeen < maxInt64) :
    ∃ v ∈ peers, (∀ p ∈ peers, v.lastSeen ≤ p.lastSeen) ∧
      evictPeerLocked peers = peers.filter fun p => p.ip ≠ v.ip := by
  obtain ⟨-, hleast, hstart | ⟨v, hv, heq⟩⟩ := foldl_older peers (maxInt64, "")
  · cases peers with
    | nil => exact absurd hfull (by decide)
    | cons p peers =>
      have hle := hleast p List.mem_cons_self
      rw [hstart] at hle
      exact absurd (hearly p List.mem_cons_self) (not_lt.2 hle)
  · rw [heq] at hleast
    refine ⟨v, hv, hleast, ?_⟩
    simp only [evictPeerLocked, if_neg (not_lt.2 hfull), heq]

theorem update_absent {peers : List PeerStat} (h : ip ∉ peers.map PeerStat.ip)
    (f : PeerStat → PeerStat) : update peers ip f = peers := by
  refine (List.map_congr_left fun p hp => if_neg fun heq => h ?_).trans (List.map_id' peers)
  exact heq ▸ List.mem_map_of_mem hp

theorem evictPeerLocked_subset (peers : List PeerStat) : evictPeerLocked peers ⊆ peers := by
  unfold evictPeerLocked
  split
  · exact List.Subset.refl peers
  · exact List.filter_subset_self peers

theorem record_new {e : Event} {peers : List PeerStat} (h : e.ip ∉ peers.map PeerStat.ip) :
    e.record peers = evictPeerLocked peers ++ [e.fold e.fresh] := by
  have hleft : e.ip ∉ (evictPeerLocked peers).map PeerStat.ip :=
    fun hmem => h (List.map_subset _ (evictPeerLocked_subset peers) hmem)
  have hlast : update [e.fresh] e.ip e.fold = [e.fold e.fresh] := by
    rw [update, List.map_singleton]
    exact congrArg (fun p => [p]) (if_pos rfl)
  have hwith : withPeer peers e.fresh = evictPeerLocked peers ++ [e.fresh] := if_neg h
  rw [Event.record_eq, hwith, update, List.map_append]
  exact congrArg₂ (· ++ ·) (update_absent hleft e.fold) hlast

theorem record_known {e : Event} {peers : List PeerStat} (h : e.ip ∈ peers.map PeerStat.ip) :
    e.record peers = update peers e.ip e.fold := by
  rw [Event.record_eq, withPeer]
  exact congrArg (update · e.ip e.fold) (if_pos h)

theorem Accounts.other {p : PeerStat} (h : Accounts log p) (hne : e.ip ≠ p.ip) :
    Accounts (e :: log) p := by
  obtain ⟨recent, first, past, rfl, hfirst, hcrowded, hseen, hconns, hin, hout⟩ := h
  refine ⟨e :: recent, first, past, rfl, hfirst, hcrowded, hseen, ?_, ?_, ?_⟩
  · rw [total_cons, if_neg hne, Int.zero_add]
    exact hconns
  · rw [List.cons_append, total_cons, if_neg hne, Int.zero_add]
    exact hin
  · rw [List.cons_append, total_cons, if_neg hne, Int.zero_add]
    exact hout

theorem Accounts.own {p : PeerStat} (h : Accounts log p) (heq : e.ip = p.ip) :
    Accounts (e :: log) (e.fold p) := by
  obtain ⟨recent, first, past, rfl, hfirst, hcrowded, hseen, hconns, hin, hout⟩ := h
  refine ⟨e :: recent, first, past, rfl, hfirst, hcrowded, hseen, ?_, ?_, ?_⟩
  · change p.totalConns + e.opens = 1 + total _ p.ip (e :: recent)
    rw [total_cons, if_pos heq, hconns]
    omega
  · change p.totalBytesIn + e.bytesIn = total _ p.ip (e :: (recent ++ [first]))
    rw [total_cons, if_pos heq, hin, Int.add_comm]
  · change p.totalBytesOut + e.bytesOut = total _ p.ip (e :: (recent ++ [first]))
    rw [total_cons, if_pos heq, hout, Int.add_comm]

theorem Accounts.first (e : Event) (h : Crowded maxPeers (uses log) e.ip) :
    Accounts (e :: log) (e.fold e.fresh) := by
  refine ⟨[], e, log, rfl, rfl, h, rfl, ?_, ?_, ?_⟩
  · change 1 - e.opens + e.opens = 1 + 0
    omega
  · change 0 + e.bytesIn = total _ e.ip [e]
    rw [total_cons, if_pos rfl]
    exact Int.add_comm _ _
  · change 0 + e.bytesOut = total _ e.ip [e]
    rw [total_cons, if_pos rfl]
    exact Int.add_comm _ _

theorem held_update {e : Event} (peers : List PeerStat) :
    held (update peers e.ip e.fold) =
      (held peers).map fun x => if x.1 = e.ip then (e.ip, e.now) else x := by
  unfold held update
  rw [List.map_map, List.map_map]
  refine List.map_congr_left fun p _ => ?_
  rw [Function.comp_apply, Function.comp_apply]
  split
  · rename_i heq
    exact congrArg (·, e.now) heq
  · rfl

theorem Ledger.event {peers : List PeerStat} (h : Ledger peers log) (hnow : e.now < maxInt64) :
    Ledger (e.record peers) (e :: log) := by
  by_cases hin : e.ip ∈ peers.map PeerStat.ip
  · have hkey : e.ip ∈ (held peers).map Prod.fst := keys_held peers ▸ hin
    rw [record_known hin]
    refine ⟨held_update peers ▸ h.holds.hit hkey e.now, fun q hq => ?_, fun q hq => ?_⟩
    · obtain ⟨p, hp, rfl⟩ := List.mem_map.1 hq
      by_cases heq : p.ip = e.ip
      · rw [if_pos heq]
        exact (h.accounts p hp).own heq.symm
      · rw [if_neg heq]
        exact (h.accounts p hp).other (Ne.symm heq)
    · obtain ⟨p, hp, rfl⟩ := List.mem_map.1 hq
      split
      · exact hnow
      · exact h.early p hp
  · have hkey : e.ip ∉ (held peers).map Prod.fst := keys_held peers ▸ hin
    have hlast : held [e.fold e.fresh] = [(e.ip, e.now)] := rfl
    rw [record_new hin]
    refine ⟨?_, fun q hq => ?_, fun q hq => ?_⟩
    · rw [held_append, hlast, uses_cons]
      by_cases hroom : peers.length < maxPeers
      · rw [evictPeerLocked, if_pos hroom]
        exact h.holds.add hkey (by rw [held, List.length_map]; exact hroom) e.now
      · obtain ⟨v, hv, hleast, hevict⟩ := evictPeerLocked_full (not_lt.1 hroom) h.early
        have hlen := h.holds.length
        have hheld : held (peers.filter fun p => p.ip ≠ v.ip) =
            (held peers).filter fun x => x.1 ≠ (v.ip, v.lastSeen).1 := by
          rw [held, held, List.filter_map]
          rfl
        rw [hevict, hheld]
        refine h.holds.evict hkey ?_ (List.mem_map_of_mem hv) (fun x hx => ?_) e.now
        · rw [held, List.length_map] at hlen ⊢
          omega
        · obtain ⟨p, hp, rfl⟩ := List.mem_map.1 hx
          exact hleast p hp
    · obtain hmem | hnew := List.mem_append.1 hq
      · have hp := evictPeerLocked_subset peers hmem
        exact (h.accounts q hp).other fun heq => hin (heq ▸ List.mem_map_of_mem hp)
      · rw [List.mem_singleton.1 hnew]
        exact Accounts.first e (h.holds.crowded e.ip hkey)
    · obtain hmem | hnew := List.mem_append.1 hq
      · exact h.early q (evictPeerLocked_subset peers hmem)
      · rw [List.mem_singleton.1 hnew]
        exact hnow

theorem Ledger.perm {peers peers' : List PeerStat} (h : Ledger peers log)
    (hp : peers'.Perm peers) : Ledger peers' log where
  holds := h.holds.perm (hp.symm.map _)
  accounts := fun p hmem => h.accounts p (hp.mem_iff.1 hmem)
  early := fun p hmem => h.early p (hp.mem_iff.1 hmem)

theorem loadPeers_perm {rows : List PeerStat} (h : rows.length ≤ maxPeers) :
    (loadPeers rows).Perm rows := by
  unfold loadPeers
  rw [List.take_of_length_le (by rw [List.length_mergeSort]; exact h)]
  exact List.mergeSort_perm rows _

theorem total_append (f : Event → Int) (ip : String) (log log' : List Event) :
    total f ip (log ++ log') = total f ip log + total f ip log' := by
  unfold total
  rw [List.filter_append, List.map_append, List.sum_append]

theorem total_unused (f : Event → Int) (h : lastUse (uses log) ip = none) :
    total f ip log = 0 := by
  have hnone : log.filter (fun e => e.ip = ip) = [] := by
    refine List.filter_eq_nil_iff.2 fun e he heq => ?_
    refine lastUse_eq_none.1 h (List.mem_toFinset.2 ?_)
    rw [uses, List.map_map]
    exact List.mem_map.2 ⟨e, he, by simpa using heq⟩
  rw [total, hnone]
  rfl

theorem Ledger.exact {peers : List PeerStat} (h : Ledger peers log)
    (hfew : (keys (uses log)).card ≤ maxPeers) (he : e ∈ log) :
    ∃ p ∈ peers, p.ip = e.ip ∧ lastUse (uses log) p.ip = some p.lastSeen ∧
      p.totalBytesIn = total Event.bytesIn p.ip log ∧
        p.totalBytesOut = total Event.bytesOut p.ip log ∧
          total Event.opens p.ip log ≤ p.totalConns := by
  have hin : e.ip ∈ (held peers).map Prod.fst := by
    by_contra hout
    cases hlast : lastUse (uses log) e.ip with
    | none =>
      refine lastUse_eq_none.1 hlast (List.mem_toFinset.2 ?_)
      rw [uses, List.map_map]
      exact List.mem_map_of_mem he
    | some t => exact absurd (h.holds.crowded e.ip hout t hlast).1 (not_lt.2 hfew)
  obtain ⟨p, hp, hip⟩ := List.mem_map.1 (keys_held peers ▸ hin)
  refine ⟨p, hp, hip, h.holds.last (p.ip, p.lastSeen) (List.mem_map_of_mem hp), ?_⟩
  obtain ⟨recent, first, past, rfl, hfirst, hcrowded, -, hconns, hbytesIn, hbytesOut⟩ :=
    h.accounts p hp
  have hpast : lastUse (uses past) p.ip = none := by
    cases hlast : lastUse (uses past) p.ip with
    | none => rfl
    | some t =>
      have hmany := (hcrowded t hlast).1
      have hsub : keys (uses past) ⊆ keys (uses (recent ++ first :: past)) := by
        intro x hx
        rw [uses, List.map_append, keys, List.map_append, List.toFinset_append]
        refine Finset.mem_union_right _ ?_
        rw [List.map_cons, List.map_cons, List.toFinset_cons]
        exact Finset.mem_insert_of_mem hx
      exact absurd (lt_of_lt_of_le hmany (Finset.card_le_card hsub)) (not_lt.2 hfew)
  have hsplit (f : Event → Int) :
      total f p.ip (recent ++ first :: past) = total f p.ip (recent ++ [first]) := by
    rw [List.append_cons, total_append, total_unused f hpast, Int.add_zero]
  rw [hsplit, hsplit, hsplit]
  refine ⟨hbytesIn, hbytesOut, ?_⟩
  have hone : total Event.opens p.ip [first] ≤ 1 := by
    rw [total_cons, if_pos hfirst]
    cases first with
    | opened addr now => exact le_rfl
    | closed addr bytesIn bytesOut now => exact zero_le_one
  rw [total_append, hconns]
  omega

theorem Ledger.nil : Ledger [] [] where
  holds := .nil maxPeers
  accounts := nofun
  early := nofun

namespace Store

/-- The table in memory and the one on disk are ledgers of what happened up to them. -/
def Balanced (s : Store) : Prop := Ledger s.peers s.log ∧ Ledger s.rows s.rowsLog

theorem Balanced.step (h : Balanced s) (hs : s.step l = some t) : Balanced t := by
  obtain ⟨hpeers, hrows⟩ := h
  unfold Store.step at hs
  cases l with
  | event e =>
    simp only at hs
    split at hs
    · rename_i hnow
      cases hs
      exact ⟨hpeers.event hnow, hrows⟩
    · cases hs
  | shuffle peers =>
    simp only at hs
    split at hs
    · rename_i hperm
      cases hs
      exact ⟨hpeers.perm hperm, hrows⟩
    · cases hs
  | flush =>
    cases hs
    exact ⟨hpeers, hpeers⟩
  | restart =>
    cases hs
    have hlen : s.rows.length ≤ maxPeers := by
      have hlen := hrows.holds.length
      rwa [held, List.length_map] at hlen
    exact ⟨hrows.perm (loadPeers_perm hlen), hrows⟩

theorem Balanced.run {s t : Store} (h : s.Balanced) (hr : Runs.Reaches Store.step s ls t) :
    t.Balanced :=
  hr.invariant (fun _ _ _ hs hstep => Balanced.step hs hstep) h

theorem balanced_start : Balanced start := ⟨.nil, .nil⟩

theorem reaches_events (s : Store) (es : List Event) (hnow : ∀ e ∈ es, e.now < maxInt64) :
    ∃ t, Runs.Reaches step s (es.map .event) t ∧ t.log = es.reverse ++ s.log := by
  induction es generalizing s with
  | nil => exact ⟨s, .nil s, rfl⟩
  | cons e es ih =>
    obtain ⟨he, hes⟩ := List.forall_mem_cons.1 hnow
    obtain ⟨t, hr, hlog⟩ := ih { s with peers := e.record s.peers, log := e :: s.log } hes
    refine ⟨t, .cons (if_pos he) hr, ?_⟩
    rw [hlog, List.reverse_cons, List.append_assoc]
    rfl

/-- Over connections that open and close, in any order of the map, with flushes and restarts: the
table has at most 512 peers, one for an address, and the last use of each; a record adds up all that
its address did since it came; and an address of the log without a record had to make way. -/
theorem balanced_of_reaches (hr : Runs.Reaches step start ls s) : s.Balanced :=
  Balanced.run balanced_start hr

/-- An address of a client behind 10.0.0.0/16. -/
def clientHost (n : Nat) : List Char :=
  "10.0.".toList ++ Nat.toDigits 10 (n / 256) ++ '.' :: Nat.toDigits 10 (n % 256)

def clientAddr (n : Nat) : String := String.ofList (clientHost n ++ ':' :: "4000".toList)

/-- One client more than the table has room for, and the bytes of the last. -/
def visits : List Event :=
  (List.range 513).map (fun n => .opened (clientAddr n) n) ++ [.closed (clientAddr 512) 7 8 600]

/-- Which client an address is of. -/
def clientOf (host : List Char) : Nat :=
  let (n, octet) := (host.drop 5).foldl (fun (n, octet) c =>
    if c = '.' then (256 * octet, 0) else (n, 10 * octet + (c.toNat - 48))) (0, 0)
  n + octet

theorem visits_nodup : ((List.range 513).map fun n => peerIP (clientAddr n)).Nodup := by
  have hclients : ∀ n ∈ List.range 513, clientOf (clientHost n) = n ∧
      ':' ∉ clientHost n ∧ '[' ∉ clientHost n ∧ ']' ∉ clientHost n := by decide +kernel
  have hips : ∀ n ∈ List.range 513, peerIP (clientAddr n) = String.ofList (clientHost n) :=
    fun n hn => peerIP_ofList (hclients n hn).2 (by decide)
  have hids : (List.range 513).map (fun n => clientOf (clientHost n)) = List.range 513 :=
    (List.map_congr_left fun n hn => (hclients n hn).1).trans (List.map_id' _)
  rw [List.map_congr_left hips]
  refine List.Nodup.of_map (fun ip => clientOf ip.toList) ?_
  simp only [List.map_map, Function.comp_def, String.toList_ofList, hids]
  exact List.nodup_range

theorem visits_keys : maxPeers < (keys (uses visits.reverse)).card := by
  have hsub : ((List.range 513).map fun n => peerIP (clientAddr n)).toFinset ⊆
      keys (uses visits.reverse) := by
    intro ip hip
    obtain ⟨n, hn, rfl⟩ := List.mem_map.1 (List.mem_toFinset.1 hip)
    rw [keys, List.mem_toFinset, uses, List.map_map]
    refine List.mem_map.2 ⟨.opened (clientAddr n) n, List.mem_reverse.2 ?_, rfl⟩
    exact List.mem_append_left _ (List.mem_map_of_mem hn)
  have hcard := Finset.card_le_card hsub
  rw [List.toFinset_card_of_nodup visits_nodup, List.length_map, List.length_range] at hcard
  exact hcard

/-- A full table before a flush and a restart: an address had to make way. -/
theorem balanced_full_table : ∃ s,
    Runs.Reaches step start (visits.map .event ++ [.flush, .restart]) s ∧ s.Balanced ∧
      ∃ ip ∈ keys (uses s.log), ip ∉ s.peers.map PeerStat.ip := by
  have hnow : ∀ e ∈ visits, e.now < maxInt64 := by
    rw [visits, List.forall_mem_append]
    refine ⟨List.forall_mem_map.2 fun n hn => ?_, by decide⟩
    have hlt := List.mem_range.1 hn
    simp only [Event.now, maxInt64]
    omega
  obtain ⟨s, hr, hlog⟩ := reaches_events start visits hnow
  have hreaches := hr.append (.cons rfl (.cons rfl (.nil _)) : Runs.Reaches step s
    [.flush, .restart] { s with rows := s.peers, rowsLog := s.log, peers := loadPeers s.peers })
  have hbalanced := balanced_of_reaches hreaches
  refine ⟨_, hreaches, hbalanced, ?_⟩
  by_contra hall
  push Not at hall
  have hcard := Finset.card_le_card (t := ((loadPeers s.peers).map PeerStat.ip).toFinset)
    fun ip hip => List.mem_toFinset.2 (hall ip hip)
  have hlen := hbalanced.1.holds.length
  have hfew := List.toFinset_card_le ((loadPeers s.peers).map PeerStat.ip)
  have hmany := visits_keys
  rw [held, List.length_map] at hlen
  rw [List.length_map] at hfew
  rw [hlog, show start.log = [] from rfl, List.append_nil] at hcard
  exact absurd (hmany.trans_le (hcard.trans (hfew.trans hlen))) (lt_irrefl _)

/-- While no more than 512 addresses have come, nothing that they did is lost but with a crash. -/
theorem exact_of_reaches (hr : Runs.Reaches step start ls s)
    (hfew : (keys (uses s.log)).card ≤ maxPeers) : ∀ e ∈ s.log, ∃ p ∈ s.peers, p.ip = e.ip ∧
      lastUse (uses s.log) p.ip = some p.lastSeen ∧
        p.totalBytesIn = total Event.bytesIn p.ip s.log ∧
          p.totalBytesOut = total Event.bytesOut p.ip s.log ∧
            total Event.opens p.ip s.log ≤ p.totalConns :=
  fun _ he => (Balanced.run balanced_start hr).1.exact hfew he

/-- Two clients, of whom one closes its connection after a restart and a step of the clock. -/
def twoVisits : List Step :=
  [.event (.opened "10.0.0.7:4000" 10), .event (.opened "10.0.0.8:4000" 20), .flush,
    .event (.opened "10.0.0.9:4000" 30), .restart, .event (.closed "10.0.0.7:4000" 7 8 15)]

theorem exact_two_visits : ∃ s, Runs.Reaches step start twoVisits s ∧
    ∀ e ∈ s.log, ∃ p ∈ s.peers, p.ip = e.ip ∧
      lastUse (uses s.log) p.ip = some p.lastSeen ∧
        p.totalBytesIn = total Event.bytesIn p.ip s.log ∧
          p.totalBytesOut = total Event.bytesOut p.ip s.log ∧
            total Event.opens p.ip s.log ≤ p.totalConns := by
  have hr : ∃ s, Runs.Reaches step start twoVisits s ∧ (uses s.log).length = 3 :=
    ⟨_, .cons rfl (.cons rfl (.cons rfl (.cons rfl (.cons rfl (.cons rfl (.nil _)))))), rfl⟩
  obtain ⟨s, hr, hlen⟩ := hr
  refine ⟨s, hr, exact_of_reaches hr ?_⟩
  have hcard := List.toFinset_card_le ((uses s.log).map Prod.fst)
  rw [List.length_map, hlen] at hcard
  exact le_trans hcard (by decide)

end Store

end ProxyForward.Peers

import ProxyForward.HashTunnels
import ProxyForward.SelfDelimiting

namespace ProxyForward
open SelfDelimiting
set_option autoImplicit true

def hexValue (digits : List Char) : Nat :=
  digits.foldl (fun n c => 16 * n + (if c.isDigit then c.toNat - 48 else c.toNat - 87)) 0

/-- Read back one escaped character. -/
def unescape : List Char → Option (Char × List Char)
  | '\\' :: 'b' :: x => some (Char.ofNat 8, x)
  | '\\' :: 'f' :: x => some (Char.ofNat 12, x)
  | '\\' :: 'n' :: x => some (Char.ofNat 10, x)
  | '\\' :: 'r' :: x => some (Char.ofNat 13, x)
  | '\\' :: 't' :: x => some (Char.ofNat 9, x)
  | '\\' :: 'u' :: a :: b :: c :: d :: x => some (Char.ofNat (hexValue [a, b, c, d]), x)
  | '\\' :: c :: x => some (c, x)
  | c :: x => some (c, x)
  | [] => none

theorem digitValue (k : Nat) (h : k < 16) :
    (if (Nat.digitChar k).isDigit then (Nat.digitChar k).toNat - 48
      else (Nat.digitChar k).toNat - 87) = k := by
  revert k
  decide

theorem hexValue_hexDigits (h : n < 65536) : hexValue (hexDigits 4 n) = n := by
  have hdigits : hexDigits 4 n = [n >>> 12 % 16, n >>> 8 % 16, n >>> 4 % 16, n >>> 0 % 16].map
      Nat.digitChar := rfl
  have hlt (m : Nat) : m % 16 < 16 := Nat.mod_lt m (by decide)
  rw [hdigits]
  simp only [List.map_cons, List.map_nil, hexValue, List.foldl_cons, List.foldl_nil,
    digitValue _ (hlt _)]
  have h12 : n >>> 12 = n / 4096 := Nat.shiftRight_eq_div_pow n 12
  have h8 : n >>> 8 = n / 256 := Nat.shiftRight_eq_div_pow n 8
  have h4 : n >>> 4 = n / 16 := Nat.shiftRight_eq_div_pow n 4
  rw [h12, h8, h4, Nat.shiftRight_zero]
  have d0 : 16 * (n / 16) + n % 16 = n := Nat.div_add_mod n 16
  have d4 : 16 * (n / 256) + n / 16 % 16 = n / 16 := by omega
  have d8 : 16 * (n / 4096) + n / 256 % 16 = n / 256 := by omega
  have d12 : n / 4096 % 16 = n / 4096 := by omega
  rw [d12, Nat.mul_zero, Nat.zero_add, d8, d4, d0]

theorem ofNat_eq (h : c.toNat = n) : Char.ofNat n = c := by
  rw [← h, Char.ofNat_toNat]

theorem unescape_jsonEscape (c : Char) (x : List Char) :
    unescape (jsonEscape c ++ x) = some (c, x) := by
  unfold jsonEscape
  split
  · rename_i h
    obtain rfl | rfl := h <;> rfl
  split
  · rename_i h
    rw [← ofNat_eq h]
    rfl
  split
  · rename_i h
    rw [← ofNat_eq h]
    rfl
  split
  · rename_i h
    rw [← ofNat_eq h]
    rfl
  split
  · rename_i h
    rw [← ofNat_eq h]
    rfl
  split
  · rename_i h
    rw [← ofNat_eq h]
    rfl
  split
  · rename_i h
    have hlt : c.toNat < 65536 := by
      obtain h | rfl | rfl | rfl | h | h := h
      · omega
      · decide
      · decide
      · decide
      · omega
      · omega
    have hread : unescape ('\\' :: 'u' :: hexDigits 4 c.toNat ++ x) =
        some (Char.ofNat (hexValue (hexDigits 4 c.toNat)), x) := rfl
    rw [hread, hexValue_hexDigits hlt, Char.ofNat_toNat]
  · rename_i h _ _ _ _ _ _
    rw [not_or] at h
    simp only [List.singleton_append]
    unfold unescape
    split <;> simp_all

theorem jsonEscape_delimited : Delimited Anything jsonEscape :=
  delimited_of_decode unescape unescape_jsonEscape

theorem jsonEscape_head (c : Char) : ∃ d s, jsonEscape c = d :: s ∧ d ≠ '"' := by
  unfold jsonEscape
  split
  · exact ⟨_, _, rfl, by decide⟩
  rename_i h
  repeat
    split
    · exact ⟨_, _, rfl, by decide⟩
  exact ⟨c, [], rfl, fun hc => h (.inl hc)⟩

theorem jsonString_delimited : Delimited Anything jsonString :=
  ((jsonEscape_delimited.terminated '"' jsonEscape_head).comap
    (f := String.toList) fun _ _ => String.toList_injective).labelled ['"']

theorem toDigits_injective : Function.Injective (Nat.toDigits 10) := by
  intro a b h
  have hread := congrArg (fun digits => Nat.ofDigitChars 10 digits 0) h
  simpa only [Nat.ofDigitChars_ten_toDigits] using hread

def isIntChar (c : Char) : Bool := c.isDigit || c = '-'

theorem jsonInt_injective : Function.Injective jsonInt := by
  have hdigit (k : Nat) (s : List Char) : Nat.toDigits 10 k ≠ '-' :: s := by
    intro h
    have hd := Nat.isDigit_of_mem_toDigits (b := 10) (n := k) (c := '-') (by decide) (by decide)
      (h ▸ List.mem_cons_self)
    revert hd
    decide
  intro a b h
  unfold jsonInt at h
  split at h
  · split at h
    · have habs := toDigits_injective (List.cons.inj h).2
      omega
    · exact absurd h.symm (hdigit _ _)
  · split at h
    · exact absurd h (hdigit _ _)
    · have habs := toDigits_injective h
      omega

theorem jsonInt_delimited :
    Delimited (fun x => ∀ c ∈ x.head?, isIntChar c = false) jsonInt := by
  refine delimited_of_marked isIntChar (fun n c hc => ?_) jsonInt_injective
  have hdigit (h : c ∈ Nat.toDigits 10 n.natAbs) : isIntChar c = true := by
    rw [isIntChar, Nat.isDigit_of_mem_toDigits (by decide) (by decide) h, Bool.true_or]
  unfold jsonInt at hc
  split at hc
  · obtain rfl | hc := List.mem_cons.1 hc
    · rfl
    · exact hdigit hc
  · exact hdigit hc

def unlessEmpty (e : α → Bool) (a : α) : Option α := if e a then none else some a

theorem unlessEmpty_injective {e : α → Bool} (he : ∀ a b, e a = true → e b = true → a = b) :
    Function.Injective (unlessEmpty e) := by
  intro a b h
  unfold unlessEmpty at h
  split at h
  · split at h
    · rename_i ha hb
      exact he a b ha hb
    · cases h
  · split at h
    · cases h
    · exact Option.some.inj h

theorem omitEmpty_eq (e : α → Bool) (label : List Char) (enc : α → List Char) (a : α) :
    omitEmpty (e a) (label ++ enc a) = optional label enc (unlessEmpty e a) := by
  unfold unlessEmpty omitEmpty
  split <;> rfl

theorem omitEmpty_flag (label : List Char) (b : Bool) :
    omitEmpty (!b) label = optional label (fun _ : Unit => []) (if b then some () else none) := by
  cases b
  · rfl
  · exact (List.append_nil label).symm

/-- The fields of a line from the first optional one on. -/
def optionalFields (s : TunnelSpec) : List Char :=
  optional ",\"offlineMotd\":".toList jsonString (unlessEmpty (fun m => m = "") s.offlineMOTD) ++
  (optional ",\"minecraftAware\":true".toList (fun _ : Unit => [])
    (if s.minecraftAware then some () else none) ++
  (optional ",\"bandwidthLimitMbps\":".toList jsonInt
    (unlessEmpty (fun n => n = 0) s.bandwidthLimitMbps) ++
  (optional ",\"bandwidthLimitScope\":".toList jsonString
    (unlessEmpty (fun m => m = "") s.bandwidthLimitScope) ++ "\x7d\n".toList)))

theorem json_eq (s : TunnelSpec) : s.json =
    "\x7b\"id\":".toList ++ (jsonString s.id ++ (",\"name\":".toList ++ (jsonString s.name ++
    (",\"type\":".toList ++ (jsonString s.type ++ (",\"publicPort\":".toList ++
    (jsonInt s.publicPort ++ optionalFields s))))))) := by
  rw [TunnelSpec.json, omitEmpty_eq (fun m : String => decide (m = "")), omitEmpty_flag,
    omitEmpty_eq (fun n : Int => decide (n = 0)), omitEmpty_eq (fun m : String => decide (m = ""))]
  rfl

theorem optionalFields_head (s : TunnelSpec) (x : List Char) :
    ∀ c ∈ (optionalFields s ++ x).head?, isIntChar c = false := by
  simp only [optionalFields, List.append_assoc]
  refine head_optional ⟨',', _, rfl, rfl⟩ (head_optional ⟨',', _, rfl, rfl⟩
    (head_optional ⟨',', _, rfl, rfl⟩ (head_optional ⟨',', _, rfl, rfl⟩ ?_ _) _) _) _
  rintro c ⟨⟩
  rfl

theorem end_fresh (l x : List Char) : ¬(',' :: l <+: "\x7d\n".toList ++ x) := by
  rintro ⟨z, hz⟩
  exact absurd (List.cons.inj hz).1 (by decide)

theorem optionalFields_inj (h : optionalFields s ++ x = optionalFields t ++ y) :
    s.offlineMOTD = t.offlineMOTD ∧ s.minecraftAware = t.minecraftAware ∧
      s.bandwidthLimitMbps = t.bandwidthLimitMbps ∧
      s.bandwidthLimitScope = t.bandwidthLimitScope ∧ x = y := by
  have hempty : ∀ a b : String, decide (a = "") = true → decide (b = "") = true → a = b :=
    fun a b ha hb => (of_decide_eq_true ha).trans (of_decide_eq_true hb).symm
  have hzero : ∀ a b : Int, decide (a = 0) = true → decide (b = 0) = true → a = b :=
    fun a b ha hb => (of_decide_eq_true ha).trans (of_decide_eq_true hb).symm
  have hflag : Function.Injective fun b : Bool => if b then some () else none := by
    intro a b h
    cases a <;> cases b <;> first | rfl | cases h
  have hunit : Delimited Anything fun _ : Unit => ([] : List Char) :=
    fun _ _ _ _ _ _ he => ⟨rfl, he⟩
  simp only [optionalFields, List.append_assoc] at h
  obtain ⟨hmotd, h⟩ := jsonString_delimited.optional _ _ _ _ _
    ⟨trivial, not_prefix_optional (by decide) (by decide) (not_prefix_optional (by decide)
      (by decide) (not_prefix_optional (by decide) (by decide) (end_fresh _ x) _) _) _⟩
    ⟨trivial, not_prefix_optional (by decide) (by decide) (not_prefix_optional (by decide)
      (by decide) (not_prefix_optional (by decide) (by decide) (end_fresh _ y) _) _) _⟩ h
  obtain ⟨haware, h⟩ := hunit.optional _ _ _ _ _
    ⟨trivial, not_prefix_optional (by decide) (by decide)
      (not_prefix_optional (by decide) (by decide) (end_fresh _ x) _) _⟩
    ⟨trivial, not_prefix_optional (by decide) (by decide)
      (not_prefix_optional (by decide) (by decide) (end_fresh _ y) _) _⟩ h
  have hend (z : List Char) : ∀ c ∈ ("\x7d\n".toList ++ z).head?, isIntChar c = false := by
    rintro c ⟨⟩
    rfl
  obtain ⟨hmbps, h⟩ := jsonInt_delimited.optional _ _ _ _ _
    ⟨head_optional ⟨',', _, rfl, rfl⟩ (hend x) _,
      not_prefix_optional (by decide) (by decide) (end_fresh _ x) _⟩
    ⟨head_optional ⟨',', _, rfl, rfl⟩ (hend y) _,
      not_prefix_optional (by decide) (by decide) (end_fresh _ y) _⟩ h
  obtain ⟨hscope, h⟩ := jsonString_delimited.optional _ _ _ _ _ ⟨trivial, end_fresh _ x⟩
    ⟨trivial, end_fresh _ y⟩ h
  exact ⟨unlessEmpty_injective hempty hmotd, hflag haware, unlessEmpty_injective hzero hmbps,
    unlessEmpty_injective hempty hscope, List.append_cancel_left h⟩

theorem json_delimited : Delimited Anything TunnelSpec.json := by
  intro s t x y _ _ h
  rw [json_eq, json_eq] at h
  simp only [List.append_assoc] at h
  obtain ⟨hid, h⟩ := jsonString_delimited _ _ _ _ trivial trivial (List.append_cancel_left h)
  obtain ⟨hname, h⟩ := jsonString_delimited _ _ _ _ trivial trivial (List.append_cancel_left h)
  obtain ⟨htype, h⟩ := jsonString_delimited _ _ _ _ trivial trivial (List.append_cancel_left h)
  obtain ⟨hport, h⟩ := jsonInt_delimited _ _ _ _ (optionalFields_head s x)
    (optionalFields_head t y) (List.append_cancel_left h)
  obtain ⟨hmotd, haware, hmbps, hscope, hxy⟩ := optionalFields_inj h
  cases s
  cases t
  simp only at hid hname htype hport hmotd haware hmbps hscope
  subst hid hname htype hport hmotd haware hmbps hscope
  exact ⟨rfl, hxy⟩

theorem sortByID_of_hashInput (h : hashInput a = hashInput b) : sortByID a = sortByID b := by
  refine json_delimited.flatMap_injective (fun s hs => ?_) h
  rw [json_eq] at hs
  exact List.cons_ne_nil _ _ hs

theorem sortByID_perm (specs : List TunnelSpec) : (sortByID specs).Perm specs :=
  List.perm_insertionSort _ specs

theorem sortByID_sorted (specs : List TunnelSpec) :
    (sortByID specs).Pairwise fun a b => a.id ≤ b.id := by
  have : Std.Total fun a b : TunnelSpec => a.id ≤ b.id := ⟨fun a b => le_total a.id b.id⟩
  have : IsTrans TunnelSpec fun a b => a.id ≤ b.id := ⟨fun _ _ _ => le_trans⟩
  exact List.pairwise_insertionSort _ specs

theorem mem_iff_of_hashInput (h : hashInput a = hashInput b) (spec : TunnelSpec) :
    spec ∈ a ↔ spec ∈ b := by
  rw [← (sortByID_perm a).mem_iff, sortByID_of_hashInput h, (sortByID_perm b).mem_iff]

theorem sortByID_unique (hdistinct : (specs.map (·.id)).Nodup) (hperm : sorted.Perm specs)
    (hsorted : sorted.Pairwise fun a b : TunnelSpec => a.id ≤ b.id) :
    sorted = sortByID specs := by
  refine List.Perm.eq_of_pairwise (fun s t hs ht hst hts => ?_) hsorted (sortByID_sorted specs)
    (hperm.trans (sortByID_perm specs).symm)
  exact List.inj_on_of_nodup_map hdistinct (hperm.subset hs)
    ((sortByID_perm specs).subset ht) (le_antisymm hst hts)

/-- The hash identifies a set: reordering it never changes the hash, and anything else does. -/
theorem hashTunnels_eq_iff_perm (env : Env) (hsha : Function.Injective env.sha256)
    (a b : List TunnelSpec) (hb : (b.map (·.id)).Nodup) :
    hashTunnels env a = hashTunnels env b ↔ a.Perm b := by
  constructor
  · intro h
    have hsorted : sortByID a = sortByID b := sortByID_of_hashInput (hsha h)
    exact (sortByID_perm a).symm.trans (hsorted ▸ sortByID_perm b)
  · intro h
    have hsorted : sortByID a = sortByID b :=
      sortByID_unique hb ((sortByID_perm a).trans h) (sortByID_sorted a)
    rw [hashTunnels, hashTunnels, hashInput, hashInput, hsorted]

theorem idleEnv_sha256_injective : Function.Injective idleEnv.sha256 :=
  fun _ _ h => String.ofList_injective h

theorem hashTunnels_eq_iff_perm_swap :
    hashTunnels idleEnv [TunnelSpec.plain "a" 8080, TunnelSpec.plain "b" 8081] =
        hashTunnels idleEnv [TunnelSpec.plain "b" 8081, TunnelSpec.plain "a" 8080] ∧
      hashTunnels idleEnv [TunnelSpec.plain "a" 8080] ≠
        hashTunnels idleEnv [TunnelSpec.plain "a" 8081] := by
  constructor
  · refine (hashTunnels_eq_iff_perm idleEnv idleEnv_sha256_injective _ _ ?_).2 ?_ <;> decide
  · intro h
    have hperm := (hashTunnels_eq_iff_perm idleEnv idleEnv_sha256_injective _ _ (by decide)).1 h
    exact absurd hperm (by decide)

end ProxyForward

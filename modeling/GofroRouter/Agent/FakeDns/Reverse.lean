import GofroRouter.Agent.FakeDns.Upstream

/-!
# Reverse zones

A reverse name with fewer labels than an address denotes a zone of addresses; `local_dns_name` looks
at the first of them.

* `local_dns_name_in_addr`, `local_dns_name_ip6`: what it decides about the name of a zone.
* `local_ipv6_zone`: the local ranges of IPv6 begin and end with zones.
* `is_lan_destination_zone`: so do those of IPv4; the LAN's subnet need not.
* **`reverse_zones_local`**: a zone is local as a whole, unless the LAN's subnet is its beginning.
-/

namespace Gofro.Agent

/-! ## Zones -/

/-- The number of the leading digits, in base `2 ^ width`. -/
def leading_digits (width : ℕ) (digits : List ℕ) : ℕ :=
  digits.foldl (fun n d => n * 2 ^ width + d) 0

/-- The addresses of `count` digits that begin with `digits`. -/
def InZone (width count : ℕ) (digits : List ℕ) (address : ℕ) : Prop :=
  address / 2 ^ (width * (count - digits.length)) = leading_digits width digits

section

variable {width count : ℕ} {digits : List ℕ}

theorem digits_value_eq : digits_value width count digits =
    leading_digits width digits * 2 ^ (width * (count - digits.length)) := rfl

theorem leading_digits_lt (h : ∀ d ∈ digits, d < 2 ^ width) :
    leading_digits width digits < 2 ^ (width * digits.length) := by
  induction digits using List.reverseRecOn with
  | nil => simp [leading_digits]
  | append_singleton ds d ih =>
    have hds := ih fun d' hd' => h d' (List.mem_append_left _ hd')
    have hd : d < 2 ^ width := h d (by simp)
    rw [leading_digits, List.foldl_append, List.length_append, Nat.mul_add, pow_add]
    simp only [List.foldl_cons, List.foldl_nil, List.length_singleton, Nat.mul_one]
    calc leading_digits width ds * 2 ^ width + d
        < leading_digits width ds * 2 ^ width + 2 ^ width := by omega
      _ = (leading_digits width ds + 1) * 2 ^ width := by ring
      _ ≤ 2 ^ (width * ds.length) * 2 ^ width := Nat.mul_le_mul_right _ hds

theorem inZone_first : InZone width count digits (digits_value width count digits) := by
  rw [InZone, digits_value_eq, Nat.mul_div_cancel _ (Nat.two_pow_pos _)]

theorem digits_value_lt (width : ℕ) (hl : digits.length ≤ count) (h : ∀ d ∈ digits, d < 2 ^ width) :
    digits_value width count digits < 2 ^ (width * count) := by
  have hpow : width * count = width * digits.length + width * (count - digits.length) := by
    rw [← Nat.mul_add, Nat.add_sub_cancel' hl]
  rw [digits_value_eq, hpow, pow_add]
  exact Nat.mul_lt_mul_of_pos_right (leading_digits_lt h) (Nat.two_pow_pos _)

/-- A zone lies in one block of `2 ^ block` addresses, if it is not larger. -/
theorem InZone.div_eq {address block : ℕ} (h : InZone width count digits address)
    (hb : width * (count - digits.length) ≤ block) :
    address / 2 ^ block = digits_value width count digits / 2 ^ block := by
  have hsplit : 2 ^ block = 2 ^ (width * (count - digits.length)) *
      2 ^ (block - width * (count - digits.length)) := by rw [← pow_add, Nat.add_sub_cancel' hb]
  rw [hsplit, ← Nat.div_div_eq_div_mul, ← Nat.div_div_eq_div_mul, h, inZone_first]

end

/-! ## Names -/

/-- The name of a zone: its labels in reverse order. -/
def reverse_name (labels : List (List Char)) (zone : String) : String :=
  String.ofList (['.'].intercalate labels.reverse ++ zone.toList)

/-- `…o₂.o₁.in-addr.arpa` -/
def in_addr_arpa (octets : List ℕ) : String :=
  reverse_name (octets.map (Nat.toDigits 10)) ".in-addr.arpa"

/-- `…n₂.n₁.ip6.arpa` -/
def ip6_arpa (nibbles : List ℕ) : String :=
  reverse_name (nibbles.map fun n => [Nat.digitChar n]) ".ip6.arpa"

theorem strip_suffix_reverse_name (labels : List (List Char)) (zone : String) :
    Text.strip_suffix (reverse_name labels zone) zone = some (['.'].intercalate labels.reverse) := by
  rw [Text.strip_suffix_eq_some, reverse_name, String.toList_ofList]

theorem splitOn_reverse {labels : List (List Char)} (hne : labels ≠ [])
    (hdot : ∀ label ∈ labels, '.' ∉ label) :
    (['.'].intercalate labels.reverse).splitOn '.' = labels.reverse :=
  List.splitOn_intercalate '.' (fun label hl => hdot label (List.mem_reverse.mp hl))
    (fun h => hne (List.reverse_eq_nil_iff.mp h))

theorem reverse_labels_reverse {labels : List (List Char)} (hne : labels ≠ [])
    (hdot : ∀ label ∈ labels, '.' ∉ label) (parse : List Char → Option ℕ) :
    reverse_labels (['.'].intercalate labels.reverse) parse = labels.mapM parse := by
  rw [reverse_labels, splitOn_reverse hne hdot, List.reverse_reverse]

theorem dot_notMem_toDigits (n : ℕ) : '.' ∉ Nat.toDigits 10 n := fun h =>
  absurd (Nat.isDigit_of_mem_toDigits (by decide) (by decide) h) (by decide)

/-- A reverse name has a dot, and none of the suffixes of a local network. -/
theorem not_local_suffix (labels : List (List Char)) {zone : String}
    (hdot : '.' ∈ zone.toList) (hlen : 9 ≤ zone.toList.length)
    (hzone : ∀ suffix ∈ LOCAL_SUFFIXES, ¬ suffix.toList <:+ zone.toList) :
    (!(reverse_name labels zone).toList.contains '.' ||
      LOCAL_SUFFIXES.any (Text.dottedSuffix (reverse_name labels zone))) = false := by
  have hlist : (reverse_name labels zone).toList =
      ['.'].intercalate labels.reverse ++ zone.toList := String.toList_ofList
  have hshort : ∀ suffix ∈ LOCAL_SUFFIXES, suffix.toList.length ≤ 9 := by decide
  rw [Bool.or_eq_false_iff]
  constructor
  · rw [hlist, Bool.not_eq_false', List.contains_iff_mem]
    exact List.mem_append_right _ hdot
  · rw [List.any_eq_false]
    intro suffix hs hd
    have hsuffix : suffix.toList <:+ (reverse_name labels zone).toList := by
      rcases Text.dottedSuffix_iff.mp hd with he | ⟨pre, he⟩
      · rw [he]
      · exact ⟨pre ++ ['.'], by rw [he, List.append_assoc]; rfl⟩
    refine hzone suffix hs (List.suffix_of_suffix_length_le hsuffix ⟨_, hlist.symm⟩ ?_)
    exact (hshort suffix hs).trans hlen

/-- **The name of an IPv4 zone** is local if the zone's first address is. -/
theorem local_dns_name_in_addr {octets : List ℕ} (hne : octets ≠ []) (hl : octets.length ≤ 4)
    (h : ∀ o ∈ octets, o ≤ 255) (lan : LanContext) :
    local_dns_name (in_addr_arpa octets) lan =
      (is_lan_destination (BitVec.ofNat 32 (digits_value 8 4 octets)) ||
        lan.subnet.contains (BitVec.ofNat 32 (digits_value 8 4 octets))) := by
  have hne' : octets.map (Nat.toDigits 10) ≠ [] := by simpa using hne
  have hdot : ∀ label ∈ octets.map (Nat.toDigits 10), '.' ∉ label := by
    intro label hlabel
    obtain ⟨o, -, rfl⟩ := List.mem_map.mp hlabel
    exact dot_notMem_toDigits o
  have hparse : (octets.map (Nat.toDigits 10)).mapM (Text.parse_unsigned 10 255) = some octets :=
    mapM_map fun o ho => Text.parse_unsigned_toDigits (h o ho)
  have hrev : ipv4_reverse (in_addr_arpa octets) lan =
      some (is_lan_destination (BitVec.ofNat 32 (digits_value 8 4 octets)) ||
        lan.subnet.contains (BitVec.ofNat 32 (digits_value 8 4 octets))) := by
    rw [ipv4_reverse, in_addr_arpa, strip_suffix_reverse_name]
    simp only [splitOn_reverse hne' hdot, List.length_reverse, List.length_map,
      reverse_labels_reverse hne' hdot, hparse]
    rw [if_neg (by omega)]
  rw [local_dns_name, in_addr_arpa, not_local_suffix _ (by decide) (by decide) (by decide)]
  rw [in_addr_arpa] at hrev
  simp [hrev]

theorem parse_nibble_digitChar : ∀ n < 16, parse_nibble [Nat.digitChar n] = some n := by decide

/-- **The name of an IPv6 zone** is local if the zone's first address is. -/
theorem local_dns_name_ip6 {nibbles : List ℕ} (hne : nibbles ≠ []) (hl : nibbles.length ≤ 32)
    (h : ∀ n ∈ nibbles, n < 16) (lan : LanContext) :
    local_dns_name (ip6_arpa nibbles) lan = local_ipv6 (digits_value 4 32 nibbles) := by
  have hne' : (nibbles.map fun n => [Nat.digitChar n]) ≠ [] := by simpa using hne
  have hchar : ∀ n < 16, '.' ≠ Nat.digitChar n := by decide
  have hdot : ∀ label ∈ nibbles.map (fun n => [Nat.digitChar n]), '.' ∉ label := by
    intro label hlabel
    obtain ⟨n, hn, rfl⟩ := List.mem_map.mp hlabel
    rw [List.mem_singleton]
    exact hchar n (h n hn)
  have hparse : (nibbles.map fun n => [Nat.digitChar n]).mapM parse_nibble = some nibbles :=
    mapM_map fun n hn => parse_nibble_digitChar n (h n hn)
  have h4 : ipv4_reverse (ip6_arpa nibbles) lan = none := by
    have hno : Text.strip_suffix (ip6_arpa nibbles) ".in-addr.arpa" = none := by
      cases hs : Text.strip_suffix (ip6_arpa nibbles) ".in-addr.arpa" with
      | none => rfl
      | some cs =>
        rw [Text.strip_suffix_eq_some, ip6_arpa, reverse_name, String.toList_ofList] at hs
        have hend := congrArg (fun l : List Char => (l.reverse.take 7)) hs
        simp only [List.reverse_append] at hend
        rw [List.take_append_of_le_length (by decide), List.take_append_of_le_length (by decide)]
          at hend
        exact absurd hend (by decide)
    rw [ipv4_reverse, hno]
  have h6 : ipv6_reverse (ip6_arpa nibbles) = some (local_ipv6 (digits_value 4 32 nibbles)) := by
    rw [ipv6_reverse, ip6_arpa, strip_suffix_reverse_name]
    simp only [splitOn_reverse hne' hdot, List.length_reverse, List.length_map,
      reverse_labels_reverse hne' hdot, hparse]
    rw [if_neg (by omega)]
  rw [local_dns_name, ip6_arpa, not_local_suffix _ (by decide) (by decide) (by decide)]
  rw [ip6_arpa] at h4 h6
  simp [h4, h6]

/-! ## Local ranges -/

theorem local_ipv6_iff {address : ℕ} : local_ipv6 address = true ↔ address = 1 ∨
    address / 2 ^ 121 = 126 ∨ address / 2 ^ 118 = 1018 ∨ address / 2 ^ 120 = 255 := by
  simp [local_ipv6, or_assoc]

/-- **The local ranges of IPv6 begin and end with zones**: a zone is local with its first address. -/
theorem local_ipv6_zone {nibbles : List ℕ} (hne : nibbles ≠ [])
    (h : local_ipv6 (digits_value 4 32 nibbles) = true) {address : ℕ}
    (hz : InZone 4 32 nibbles address) : local_ipv6 address = true := by
  have hpos : 0 < nibbles.length := List.length_pos_of_ne_nil hne
  -- the lengths at which a zone is larger than a range
  have hbig : ∀ block, block < 4 * (32 - nibbles.length) → ∃ k,
      4 * (32 - nibbles.length) = block + k ∧ 1 ≤ k ∧
      digits_value 4 32 nibbles / 2 ^ block = leading_digits 4 nibbles * 2 ^ k := by
    intro block hlt
    refine ⟨4 * (32 - nibbles.length) - block, by omega, by omega, ?_⟩
    have hpow : 2 ^ (4 * (32 - nibbles.length)) =
        2 ^ (4 * (32 - nibbles.length) - block) * 2 ^ block := by
      rw [← pow_add, Nat.sub_add_cancel hlt.le]
    rw [digits_value_eq, hpow, ← Nat.mul_assoc, Nat.mul_div_cancel _ (Nat.two_pow_pos _)]
  rw [local_ipv6_iff] at h ⊢
  rcases h with h | h | h | h
  · left
    rcases Nat.eq_zero_or_pos (4 * (32 - nibbles.length)) with hz0 | hlt
    · rw [InZone, hz0, pow_zero, Nat.div_one] at hz
      rw [digits_value_eq, hz0, pow_zero, Nat.mul_one] at h
      rw [hz, h]
    · obtain ⟨k, -, hk, hd⟩ := hbig 0 hlt
      obtain ⟨j, rfl⟩ := Nat.exists_eq_add_of_le hk
      rw [pow_zero, Nat.div_one, h, pow_add, pow_one, Nat.mul_left_comm] at hd
      omega
  · refine .inr (.inl ?_)
    by_cases hb : 4 * (32 - nibbles.length) ≤ 121
    · rw [hz.div_eq hb, h]
    · obtain ⟨k, hk, -, hd⟩ := hbig 121 (by omega)
      obtain rfl : k = 3 := by omega
      omega
  · refine .inr (.inr (.inl ?_))
    by_cases hb : 4 * (32 - nibbles.length) ≤ 118
    · rw [hz.div_eq hb, h]
    · obtain ⟨k, hk, -, hd⟩ := hbig 118 (by omega)
      have hk' : k = 2 ∨ k = 6 := by omega
      rcases hk' with rfl | rfl <;> omega
  · refine .inr (.inr (.inr ?_))
    by_cases hb : 4 * (32 - nibbles.length) ≤ 120
    · rw [hz.div_eq hb, h]
    · obtain ⟨k, hk, -, hd⟩ := hbig 120 (by omega)
      obtain rfl : k = 4 := by omega
      omega

theorem is_lan_destination_iff {ip : Ipv4Addr} : is_lan_destination ip = true ↔
    (10 * 2 ^ 24 ≤ ip.toNat ∧ ip.toNat < 11 * 2 ^ 24) ∨
    (127 * 2 ^ 24 ≤ ip.toNat ∧ ip.toNat < 128 * 2 ^ 24) ∨
    (43518 * 2 ^ 16 ≤ ip.toNat ∧ ip.toNat < 43519 * 2 ^ 16) ∨
    (44048 * 2 ^ 16 ≤ ip.toNat ∧ ip.toNat < 44064 * 2 ^ 16) ∨
    (49320 * 2 ^ 16 ≤ ip.toNat ∧ ip.toNat < 49321 * 2 ^ 16) ∨
    (224 * 2 ^ 24 ≤ ip.toNat ∧ ip.toNat < 240 * 2 ^ 24) ∨ ip.toNat = 2 ^ 32 - 1 := by
  have hlt := ip.isLt
  simp only [is_lan_destination, LAN_RANGES, List.any_cons, List.any_nil, Bool.or_false,
    Bool.or_eq_true, Ipv4.Net.contains_iff, Ipv4.Net.size, Ipv4.addr, BitVec.toNat_ofNat]
  omega

/-- **The LAN ranges of IPv4 begin and end with zones, too**; only the single address at the end is
no zone by itself. -/
theorem is_lan_destination_zone {octets : List ℕ} (hne : octets ≠ []) (hl : octets.length ≤ 4)
    (ho : ∀ o ∈ octets, o ≤ 255)
    (h : is_lan_destination (BitVec.ofNat 32 (digits_value 8 4 octets)) = true) {ip : Ipv4Addr}
    (hz : InZone 8 4 octets ip.toNat) : is_lan_destination ip = true := by
  have hlt := digits_value_lt 8 hl fun o h' => Nat.lt_succ_of_le (ho o h')
  have hip := ip.isLt
  rw [is_lan_destination_iff, BitVec.toNat_ofNat, Nat.mod_eq_of_lt hlt] at h
  rw [is_lan_destination_iff]
  have hcases : octets.length = 1 ∨ octets.length = 2 ∨ octets.length = 3 ∨ octets.length = 4 := by
    have := List.length_pos_of_ne_nil hne
    omega
  rw [digits_value_eq] at h
  unfold InZone at hz
  rcases hcases with hn | hn | hn | hn <;> rw [hn] at h hz <;> omega

/-- The LAN's subnet is the beginning of the zone, which is no LAN range. -/
def SubnetBegins (lan : LanContext) (octets : List ℕ) : Prop :=
  8 * octets.length < lan.subnet.prefix_len ∧
    lan.subnet.network = BitVec.ofNat 32 (digits_value 8 4 octets) ∧
    is_lan_destination (BitVec.ofNat 32 (digits_value 8 4 octets)) = false

/-- A zone that is larger than the subnet has an address outside of both. -/
theorem exists_public {lan : LanContext} {octets : List ℕ} (hne : octets ≠ [])
    (ho : ∀ o ∈ octets, o ≤ 255) (h : SubnetBegins lan octets) :
    ∃ ip : Ipv4Addr, InZone 8 4 octets ip.toNat ∧ is_lan_destination ip = false ∧
      lan.subnet.contains ip = false := by
  obtain ⟨hp, hnet, hlan⟩ := h
  have hple := lan.subnet.prefix_le
  have hl : octets.length ≤ 3 := by omega
  have hlt := digits_value_lt 8 (show octets.length ≤ 4 by omega)
    fun o h' => Nat.lt_succ_of_le (ho o h')
  have hfirst : lan.subnet.first = digits_value 8 4 octets := by
    rw [← Ipv4.Net.network_toNat, hnet, BitVec.toNat_ofNat, Nat.mod_eq_of_lt hlt]
  have hhalf : lan.subnet.size ≤ 2 ^ (31 - 8 * octets.length) :=
    Nat.pow_le_pow_right (by norm_num) (by omega)
  have hlast : lan.subnet.last = digits_value 8 4 octets + (lan.subnet.size - 1) := by
    rw [Ipv4.Net.last, hfirst]
  rw [← Bool.not_eq_true, is_lan_destination_iff, BitVec.toNat_ofNat, Nat.mod_eq_of_lt hlt] at hlan
  have hsize : ∃ size, 2 ^ (8 * (4 - octets.length)) = size ∧ lan.subnet.size ≤ size / 2 ∧
      (size = 16777216 ∨ size = 65536 ∨ size = 256) := by
    have hcases : octets.length = 1 ∨ octets.length = 2 ∨ octets.length = 3 := by
      have := List.length_pos_of_ne_nil hne
      omega
    refine ⟨_, rfl, ?_⟩
    rcases hcases with hn | hn | hn <;> rw [hn] at hhalf ⊢ <;> norm_num at hhalf ⊢ <;> exact hhalf
  obtain ⟨size, hs, hsub, hsize⟩ := hsize
  have hlead : digits_value 8 4 octets = leading_digits 8 octets * size := by
    rw [digits_value_eq, hs]
  have hroom : leading_digits 8 octets * size + size ≤ 4294967296 := by
    rw [hlead] at hlt
    rcases hsize with rfl | rfl | rfl <;> omega
  rw [hlead] at hlan hlast
  -- the last address but one: the last one of all is a LAN range by itself
  have hip : (BitVec.ofNat 32 (leading_digits 8 octets * size + (size - 2))).toNat =
      leading_digits 8 octets * size + (size - 2) := by
    rw [BitVec.toNat_ofNat, Nat.mod_eq_of_lt]
    omega
  refine ⟨BitVec.ofNat 32 (leading_digits 8 octets * size + (size - 2)), ?_, ?_, ?_⟩
  · rw [InZone, hip, hs]
    rcases hsize with rfl | rfl | rfl <;> omega
  · rw [← Bool.not_eq_true, is_lan_destination_iff, hip]
    clear hip hlast hs
    rcases hsize with rfl | rfl | rfl <;> rintro (h | h | h | h | h | h | h) <;> omega
  · rw [← Bool.not_eq_true, Ipv4.Net.contains_iff_bounds, hip, hlast]
    rcases hsize with rfl | rfl | rfl <;> omega

/-- A zone that begins in the subnet is inside, unless the subnet is its beginning. -/
theorem contains_zone {lan : LanContext} {octets : List ℕ} (hl : octets.length ≤ 4)
    (ho : ∀ o ∈ octets, o ≤ 255)
    (h : lan.subnet.contains (BitVec.ofNat 32 (digits_value 8 4 octets)) = true) :
    (8 * octets.length < lan.subnet.prefix_len ∧
      lan.subnet.network = BitVec.ofNat 32 (digits_value 8 4 octets)) ∨
    ∀ ip : Ipv4Addr, InZone 8 4 octets ip.toNat → lan.subnet.contains ip = true := by
  have hlt := digits_value_lt 8 hl fun o h' => Nat.lt_succ_of_le (ho o h')
  have hple := lan.subnet.prefix_le
  rw [Ipv4.Net.contains_iff, BitVec.toNat_ofNat, Nat.mod_eq_of_lt hlt] at h
  by_cases hp : 8 * octets.length < lan.subnet.prefix_len
  · -- the first address of the zone has its low bits clear, also those of the subnet
    refine .inl ⟨hp, BitVec.eq_of_toNat_eq ?_⟩
    rw [Ipv4.Net.network_toNat, BitVec.toNat_ofNat, Nat.mod_eq_of_lt hlt, Ipv4.Net.first, ← h]
    refine Nat.div_mul_cancel ?_
    rw [digits_value_eq, Ipv4.Net.size]
    exact (pow_dvd_pow 2 (by omega)).mul_left _
  · refine .inr fun ip hz => ?_
    rw [Ipv4.Net.contains_iff, ← h]
    exact hz.div_eq (by omega)

/-- **Reverse names are local with their whole zone**, for every LAN: of IPv6 always, and of IPv4
exactly when the LAN's subnet is not the beginning of a zone that is larger. -/
theorem reverse_zones_local (lan : LanContext) :
    (∀ octets : List ℕ, octets ≠ [] → octets.length ≤ 4 → (∀ o ∈ octets, o ≤ 255) →
      ((local_dns_name (in_addr_arpa octets) lan = true ↔ ∀ ip : Ipv4Addr,
          InZone 8 4 octets ip.toNat →
            is_lan_destination ip = true ∨ lan.subnet.contains ip = true) ↔
        ¬ SubnetBegins lan octets)) ∧
    ∀ nibbles : List ℕ, nibbles ≠ [] → nibbles.length ≤ 32 → (∀ n ∈ nibbles, n < 16) →
      (local_dns_name (ip6_arpa nibbles) lan = true ↔ ∀ address < 2 ^ 128,
        InZone 4 32 nibbles address → local_ipv6 address = true) := by
  constructor
  · intro octets hne hl ho
    have hlt := digits_value_lt 8 hl fun o h' => Nat.lt_succ_of_le (ho o h')
    have hfirst : InZone 8 4 octets (BitVec.ofNat 32 (digits_value 8 4 octets)).toNat := by
      rw [BitVec.toNat_ofNat, Nat.mod_eq_of_lt hlt]
      exact inZone_first
    rw [local_dns_name_in_addr hne hl ho, Bool.or_eq_true]
    constructor
    · intro hiff hb
      obtain ⟨ip, hz, hlan, hsub⟩ := exists_public hne ho hb
      have hin : lan.subnet.contains (BitVec.ofNat 32 (digits_value 8 4 octets)) = true :=
        hb.2.1 ▸ lan.subnet.contains_network
      have hall := hiff.mp (.inr hin) ip hz
      simp [hlan, hsub] at hall
    · intro hb
      refine ⟨fun h ip hz => ?_, fun h => h _ hfirst⟩
      by_cases hlan : is_lan_destination (BitVec.ofNat 32 (digits_value 8 4 octets)) = true
      · exact .inl (is_lan_destination_zone hne hl ho hlan hz)
      · rcases contains_zone hl ho (h.resolve_left hlan) with ⟨hp, hnet⟩ | hall
        · exact absurd ⟨hp, hnet, Bool.not_eq_true _ ▸ hlan⟩ hb
        · exact .inr (hall ip hz)
  · intro nibbles hne hl hn
    have hlt := digits_value_lt 4 hl hn
    rw [local_dns_name_ip6 hne hl hn]
    exact ⟨fun h address _ hz => local_ipv6_zone hne h hz, fun h => h _ hlt inZone_first⟩

/-- A LAN in the shared address space. -/
def sharedLan : LanContext where
  device := "br-lan"
  subnet := ⟨Ipv4.addr 100 64 0 0, 24, Ipv4.Net.prefix_24⟩
  address := Ipv4.addr 100 64 0 1

/-- `reverse_zones_local` for a zone of private addresses. -/
theorem reverse_zones_local_sample :
    local_dns_name (in_addr_arpa [192, 168]) sharedLan = true ↔ ∀ ip : Ipv4Addr,
      InZone 8 4 [192, 168] ip.toNat →
        is_lan_destination ip = true ∨ sharedLan.subnet.contains ip = true :=
  ((reverse_zones_local sharedLan).1 [192, 168] (by decide) (by decide) (by decide)).mpr
    fun h => absurd h.2.1 (by decide +kernel)

/-- The zone of `64.100.in-addr.arpa` begins with the LAN's subnet, so its name is local; 100.64.1.0
is in the zone and not on the LAN. -/
theorem enclosing_zone_local :
    validate_lan sharedLan = .ok () ∧ in_addr_arpa [100, 64] = "64.100.in-addr.arpa" ∧
      local_dns_name (in_addr_arpa [100, 64]) sharedLan = true ∧
      ¬ ∀ ip : Ipv4Addr, InZone 8 4 [100, 64] ip.toNat →
        is_lan_destination ip = true ∨ sharedLan.subnet.contains ip = true := by
  refine ⟨by decide +kernel, by decide +kernel, by decide +kernel, fun h => ?_⟩
  have hip := h (Ipv4.addr 100 64 1 0) (by unfold InZone; decide +kernel)
  revert hip
  decide +kernel

end Gofro.Agent

import GofroRouter.Agent.Dataplane.Table

/-!
# The marks of the generated chain

The chain `gofro_mark` of the generated table, evaluated on packets from the LAN, against the
routing policy.

* `covers_append_networks`: the printed intervals cover the networks of a tag.
* `find?_classification`: the first rule that matches an address carries the policy's decision.
* **`render_refines`**: the table gives every packet the mark of the policy, and drops exactly the
  blocked ones.
-/

namespace Gofro.Agent

open Nft (Table Packet Match Mark runRule runRules)
open RoutingPolicy (Compiled)
open Geodata (RegexEngine)

/-! ## Intervals -/

theorem covers_interval {start end_ a : Ipv4Addr} (h : start ≤ end_) :
    (interval start end_).covers a = true ↔ start ≤ a ∧ a ≤ end_ := by
  unfold interval
  split_ifs with he
  · subst he
    simp only [Nft.Elem.covers, decide_eq_true_eq]
    constructor
    · rintro rfl; exact ⟨h, h⟩
    · rintro ⟨h₁, h₂⟩; exact BitVec.le_antisymm h₂ h₁
  · simp [Nft.Elem.covers]

theorem covers_append_from {start end_ : Ipv4Addr} {networks : List Ipv4Net} (h : start ≤ end_)
    (hs : Ipv4.Net.Separated networks) (hn : ∀ n ∈ networks, end_.toNat < n.first)
    (a : Ipv4Addr) :
    (∃ e ∈ append_from start end_ networks, e.covers a = true) ↔
      (start ≤ a ∧ a ≤ end_) ∨ ∃ n ∈ networks, n.contains a = true := by
  induction networks generalizing start end_ with
  | nil => simp [append_from, covers_interval h]
  | cons n networks ih =>
    obtain ⟨hlast, hs⟩ := List.pairwise_cons.mp hs
    have hend := hn n List.mem_cons_self
    have hbounds := n.first_le_last
    have hnet : n.network ≤ n.broadcast := by
      rw [BitVec.le_def, Ipv4.Net.network_toNat, Ipv4.Net.broadcast_toNat]; exact hbounds
    have hlater : ∀ m ∈ networks, n.broadcast.toNat < m.first := fun m hm => by
      rw [Ipv4.Net.broadcast_toNat]; exact hlast m hm
    have hcontains : n.contains a = true ↔ n.network ≤ a ∧ a ≤ n.broadcast := by
      simp [Ipv4.Net.contains]
    rw [append_from]
    split
    · simp only [List.mem_cons, exists_eq_or_imp, covers_interval h, ih hnet hs hlater, hcontains]
    · rename_i htouch
      -- the next network begins right after the current interval
      have hgap : n.first = end_.toNat + 1 := by
        have hlt := n.first_lt
        rw [Ipv4.Net.network_toNat, Geodata.successor] at htouch
        omega
      have hle : end_ ≤ n.broadcast := by
        rw [BitVec.le_def, Ipv4.Net.broadcast_toNat]; omega
      have hjoin : (start ≤ a ∧ a ≤ n.broadcast) ↔
          (start ≤ a ∧ a ≤ end_) ∨ (n.network ≤ a ∧ a ≤ n.broadcast) := by
        simp only [BitVec.le_def, Ipv4.Net.network_toNat] at *
        omega
      rw [if_pos hle, ih (BitVec.le_trans h hle) hs hlater, hjoin, or_assoc, List.exists_mem_cons_iff,
        hcontains]

/-- **The printed intervals cover exactly the networks.** -/
theorem covers_append_networks {networks : List Ipv4Net} (hs : Ipv4.Net.Separated networks)
    (a : Ipv4Addr) :
    (∃ e ∈ append_networks networks, e.covers a = true) ↔
      ∃ n ∈ networks, n.contains a = true := by
  cases networks with
  | nil => simp [append_networks]
  | cons n networks =>
    obtain ⟨hlast, hs⟩ := List.pairwise_cons.mp hs
    have hnet : n.network ≤ n.broadcast := by
      rw [BitVec.le_def, Ipv4.Net.network_toNat, Ipv4.Net.broadcast_toNat]
      exact n.first_le_last
    have hlater : ∀ m ∈ networks, n.broadcast.toNat < m.first := fun m hm => by
      rw [Ipv4.Net.broadcast_toNat]; exact hlast m hm
    rw [append_networks, covers_append_from hnet hs hlater, List.exists_mem_cons_iff]
    simp [Ipv4.Net.contains]

/-! ## Mark bits -/

theorem target_mark_masked (m : Mark) (target : RouteTarget) :
    ((m &&& KEEP_FOREIGN_MARKS) ||| target_mark target) &&& GOFRO_MARK_MASK =
      target_mark target := by
  have hz : (m &&& KEEP_FOREIGN_MARKS) &&& GOFRO_MARK_MASK = 0 := by
    have hc : KEEP_FOREIGN_MARKS &&& GOFRO_MARK_MASK = 0 := by decide
    rw [BitVec.and_assoc, hc]
    exact BitVec.and_zero
  have ht : target_mark target &&& GOFRO_MARK_MASK = target_mark target := by
    cases target <;> decide
  rw [BitVec.and_or_distrib_right, hz, ht]
  exact BitVec.zero_or

/-! ## The first rule that matches -/

theorem mem_enabled_ip_rules {policy : RoutingPolicy} {entry : ℕ × IpRule}
    (h : entry ∈ enabled_ip_rules policy) :
    policy.config.ip_rules[entry.1]? = some entry.2 ∧ entry.2.enabled = true := by
  obtain ⟨index, -, he⟩ := List.mem_filterMap.mp h
  obtain ⟨rule, hr, rfl⟩ := Option.map_eq_some_iff.mp he
  exact Option.filter_eq_some_iff.mp hr

theorem enabled_ip_rules_sublist (policy : RoutingPolicy) :
    ((enabled_ip_rules policy).map Prod.fst).Sublist policy.ip_rule_indices := by
  unfold enabled_ip_rules
  induction policy.ip_rule_indices with
  | nil => exact .slnil
  | cons index indices ih =>
    rw [List.filterMap_cons]
    cases (policy.config.ip_rules[index]?).filter IpRule.enabled with
    | none => exact ih.cons index
    | some rule => exact ih.cons_cons index

theorem findSome?_ip_hit (policy : RoutingPolicy) (ip : Ipv4Addr) :
    policy.ip_rule_indices.findSome? (policy.ip_hit ip) =
      ((enabled_ip_rules policy).find? fun entry => policy.matches_ip entry.1 ip).map Prod.snd := by
  unfold enabled_ip_rules
  induction policy.ip_rule_indices with
  | nil => rfl
  | cons index indices ih =>
    rw [List.findSome?_cons, List.filterMap_cons, RoutingPolicy.ip_hit]
    cases policy.config.ip_rules[index]? with
    | none => exact ih
    | some rule =>
      cases he : rule.enabled with
      | false => simpa [Option.filter, he] using ih
      | true =>
        simp only [Option.filter_some, he, if_true, Bool.true_and, Option.map_some]
        rw [List.find?_cons]
        cases policy.matches_ip index ip with
        | true => rfl
        | false => exact ih

theorem ip_target_eq (policy : RoutingPolicy) (ip : Ipv4Addr) :
    (policy.ip_target ip).1 =
      if is_lan_destination ip then .direct
      else (((enabled_ip_rules policy).find? fun entry => policy.matches_ip entry.1 ip).map
        fun entry => entry.2.target).getD policy.effective_fallback := by
  rw [RoutingPolicy.ip_target, findSome?_ip_hit]
  split_ifs with hlan hall
  · rfl
  · have hnil : enabled_ip_rules policy = [] := by
      rw [enabled_ip_rules, RoutingPolicy.ip_rule_indices, if_pos hall]; rfl
    rw [hnil, List.find?_nil, RoutingPolicy.effective_fallback, if_pos hall]
    rfl
  · cases (enabled_ip_rules policy).find? fun entry => policy.matches_ip entry.1 ip <;> rfl

theorem holds_fake_set {base : List Nft.Edit} {mappings : List FakeMapping}
    {exclusions : List MacAddress} {t : Table} {p : Packet}
    (h : Rendered base mappings exclusions t) (hp : p.nfproto = .ipv4) (target : RouteTarget) :
    Match.holds t p (.ip_daddr (.named (fake_set target))) = true ↔
      ∃ m ∈ mappings, m.target = target ∧ m.fake = p.daddr := by
  simp only [Match.holds, hp, decide_true, Bool.true_and, Nft.AddrExpr.holds, Table.set, h.fakes,
    Option.any_some, decide_eq_true_eq, mem_fake_elems]
  constructor
  · rintro ⟨_, ⟨m, hm, ht, rfl⟩, he⟩
    exact ⟨m, hm, ht, (of_decide_eq_true he).symm⟩
  · rintro ⟨m, hm, ht, he⟩
    exact ⟨_, ⟨m, hm, ht, rfl⟩, decide_eq_true he.symm⟩

section

variable {egress : VpnEgress} {policy : RoutingPolicy} {mappings : List FakeMapping}
  {exclusions : List MacAddress} {base : List Nft.Edit} {t : Table} {p : Packet}

/-- The interval sets of the GeoIP rules hold the networks of their tags. -/
def GeoSets (policy : RoutingPolicy) (t : Table) : Prop :=
  ∀ entry ∈ enabled_ip_rules policy, ∀ value, entry.2.matcher = .geoIp value →
    t (.set (ip_rule_set entry.1)) =
      some ⟨.ipv4_interval, (append_networks (policy.geodata.ip_networks value)).toFinset⟩

theorem holds_ip_rule_match [RegexEngine] [Idna] (hc : Compiled policy) (hp : p.nfproto = .ipv4)
    {entry : ℕ × IpRule} (hmem : entry ∈ enabled_ip_rules policy) (ht : GeoSets policy t) :
    Match.holds t p (ip_rule_match entry) = policy.matches_ip entry.1 p.daddr := by
  have hrule := (mem_enabled_ip_rules hmem).1
  rw [RoutingPolicy.matches_ip, hrule, Option.map_some, ip_rule_match]
  cases hm : entry.2.matcher with
  | cidr value =>
    have hnet : policy.ip_rules[entry.1]? = some (Ipv4.Net.ofString? value) := by
      rw [hc.ip_rules, List.getElem?_map, hrule, Option.map_some, RoutingPolicy.network, hm]
    simp [Match.holds, hp, Nft.AddrExpr.holds, hnet]
  | geoIp value =>
    simp only [Match.holds, hp, decide_true, Bool.true_and, Nft.AddrExpr.holds, Table.set,
      ht entry hmem value hm, Option.any_some, List.mem_toFinset]
    rw [Bool.eq_iff_iff, decide_eq_true_eq, covers_append_networks (hc.separated value),
      Geodata.GeoData.matches_ip_iff (hc.separated value)]

/-- The mark of the first rule that matches, or of the fallback. -/
def classified (egress : VpnEgress) (policy : RoutingPolicy) (t : Table) (p : Packet) : Mark :=
  (((classification egress policy).find? fun c => c.1.holds t p).map Prod.snd).getD
    (target_mark (egress.target policy.effective_fallback))

theorem fake_sets_eq : FAKE_TARGET_SETS =
    [RouteTarget.direct, .vpn, .warp, .block].map fun target => (target, fake_set target) := rfl

/-- **The fake address of a mapping** gets the mark of its target. -/
theorem classified_fake (h : Rendered base mappings exclusions t) (hp : p.nfproto = .ipv4)
    (hn : (mappings.map FakeMapping.fake).Nodup) {m : FakeMapping} (hm : m ∈ mappings)
    (hf : m.fake = p.daddr) :
    classified egress policy t p = target_mark (egress.target m.target) := by
  have hset : ∀ target, Match.holds t p (.ip_daddr (.named (fake_set target))) =
      decide (m.target = target) := by
    intro target
    rw [Bool.eq_iff_iff, holds_fake_set h hp, decide_eq_true_eq]
    constructor
    · rintro ⟨m', hm', rfl, hf'⟩
      rw [eq_of_fake_eq hn hm hm' (hf.trans hf'.symm)]
    · rintro rfl
      exact ⟨m, hm, rfl, hf⟩
  rw [classified, classification, fake_sets_eq]
  simp only [List.map_cons, List.map_nil, List.cons_append, List.nil_append, List.find?_cons, hset]
  cases m.target <;> rfl

/-- **Every other address** gets the mark of the policy's decision about it. -/
theorem classified_other [RegexEngine] [Idna] (h : Rendered base mappings exclusions t)
    (ht : GeoSets policy t) (hc : Compiled policy) (hp : p.nfproto = .ipv4) (hf : ∀ m ∈ mappings, m.fake ≠ p.daddr) :
    classified egress policy t p =
      target_mark (egress.target (policy.ip_target p.daddr).1) := by
  have hset : ∀ target, Match.holds t p (.ip_daddr (.named (fake_set target))) = false := by
    intro target
    rw [← Bool.not_eq_true, holds_fake_set h hp]
    rintro ⟨m, hm, -, he⟩
    exact hf m hm he
  have hlan : Match.holds t p (.ip_daddr (.anonymous LAN_RANGES)) =
      is_lan_destination p.daddr := by
    simp [Match.holds, hp, Nft.AddrExpr.holds, is_lan_destination]
  have hrules : ((enabled_ip_rules policy).find? fun entry =>
      Match.holds t p (ip_rule_match entry)) =
        (enabled_ip_rules policy).find? fun entry => policy.matches_ip entry.1 p.daddr := by
    refine List.find?_congr fun entry hmem => ?_
    rw [holds_ip_rule_match hc hp hmem ht]
  rw [ip_target_eq, classified, classification, fake_sets_eq]
  simp only [List.map_cons, List.map_nil, List.cons_append, List.nil_append, List.find?_cons, hset,
    hlan]
  cases is_lan_destination p.daddr with
  | true =>
    have hdirect : egress.target .direct = .direct := by
      simp [VpnEgress.target, effective_target]
    simp only [if_true, Option.map_some, Option.getD_some, hdirect]
    rfl
  | false =>
    simp only [List.find?_map, Function.comp_def, hrules, Bool.false_eq_true, if_false]
    cases (enabled_ip_rules policy).find? fun entry => policy.matches_ip entry.1 p.daddr <;> rfl

end

/-! ## The stages of the chain -/

section

variable {lan : LanContext} {egress : VpnEgress} {policy : RoutingPolicy}
  {panel_ports : PanelPorts} {mappings : List FakeMapping} {exclusions : List MacAddress}
  {base : List Nft.Edit} {t : Table} {p : Packet}

theorem runRules_vip (h : p.daddr ≠ PANEL_VIRTUAL_IP) :
    runRules t p (vip_rules lan panel_ports) = (p, none) := by
  refine Nft.runRules_skip fun r hr => ?_
  obtain ⟨condition, -, rfl⟩ := List.mem_map.mp hr
  exact Nft.runRule_guard_false (by simp [Match.holds, Nft.AddrExpr.holds, h]) _

theorem runRules_dns_owner :
    ∃ c, runRules t p (dns_owner_rules lan) = ({ p with ct_mark := c }, none) := by
  have hrule : ∀ (p : Packet) (port : Match), ∃ c, runRule t p [from_lan lan,
      .guard (.ct_direction .original), .guard port,
      .ct_mark_set (BitVec.allOnes 32) 0x40000000] = ({ p with ct_mark := c }, none) := by
    intro p port
    simp only [from_lan, runRule]
    split_ifs <;> exact ⟨_, rfl⟩
  obtain ⟨c, hc⟩ := hrule p (.udp_dport [53])
  obtain ⟨d, hd⟩ := hrule { p with ct_mark := c } (.tcp_dport .eq [53])
  refine ⟨d, ?_⟩
  simp only [dns_owner_rules, List.map_cons, List.map_nil, runRules, hc, hd]

theorem holds_exclusions (h : Rendered base mappings exclusions t) :
    Match.holds t p (.ether_saddr .eq "device_exclusions") =
      decide (p.ether_saddr ∈ exclusions.map MacAddress.bits) := by
  simp only [Match.holds, Nft.Op.test, Table.set, h.excluded, Option.any_some, List.mem_toFinset,
    exclusion_elements, List.mem_map]
  congr 1
  simp

theorem runRules_excluded (h : Rendered base mappings exclusions t)
    (hd : p.iifname = lan.device) (hx : p.ether_saddr ∈ exclusions.map MacAddress.bits) :
    runRules t p (exclusion_rule lan :: reply_rules lan) =
      ({ p with
          mark := (p.mark &&& KEEP_FOREIGN_MARKS) ||| DIRECT_MARK
          ct_mark := (p.ct_mark &&& KEEP_FOREIGN_MARKS) ||| DIRECT_MARK }, some .ret) := by
  have hex : Match.holds t p (.ether_saddr .eq "device_exclusions") = true := by
    rw [holds_exclusions h, decide_eq_true hx]
  have hdev : Match.holds t p (.iifname .eq lan.device) = true := by
    simp [Match.holds, Nft.Op.test, hd]
  rw [runRules, exclusion_rule, from_lan, Nft.runRule_guard_true hdev,
    Nft.runRule_guard_true hex]
  rfl

theorem runRules_not_excluded (h : Rendered base mappings exclusions t)
    (hd : p.iifname = lan.device) (ho : p.ct_direction = .original)
    (hx : p.ether_saddr ∉ exclusions.map MacAddress.bits) :
    runRules t p (exclusion_rule lan :: reply_rules lan) = (p, none) := by
  have hex : Match.holds t p (.ether_saddr .eq "device_exclusions") = false := by
    rw [holds_exclusions h, decide_eq_false hx]
  have hdev : Match.holds t p (.iifname .eq lan.device) = true := by
    simp [Match.holds, Nft.Op.test, hd]
  have hrep : Match.holds t p (.ct_direction .reply) = false := by simp [Match.holds, ho]
  refine Nft.runRules_skip fun r hr => ?_
  rcases List.mem_cons.mp hr with rfl | hr
  · rw [exclusion_rule, from_lan, Nft.runRule_guard_true hdev, Nft.runRule_guard_false hex]
  · obtain ⟨stmt, -, rfl⟩ := List.mem_map.mp hr
    rw [from_lan, Nft.runRule_guard_true hdev, Nft.runRule_guard_false hrep]

/-- The mark that the router's own rules leave. -/
def local_mark (lan : LanContext) (p : Packet) : Mark :=
  if lan.subnet.contains p.daddr then DIRECT_MARK else 0

theorem keep_keep (m bits : Mark) (hb : bits &&& KEEP_FOREIGN_MARKS = 0) :
    ((m &&& KEEP_FOREIGN_MARKS) ||| bits) &&& KEEP_FOREIGN_MARKS = m &&& KEEP_FOREIGN_MARKS := by
  rw [BitVec.and_or_distrib_right, hb, BitVec.and_assoc, BitVec.and_self]
  exact BitVec.or_zero

theorem runRules_local (hd : p.iifname = lan.device) (hp : p.nfproto = .ipv4)
    (hv : p.daddr ≠ PANEL_VIRTUAL_IP) (hl : p.daddr_local = false) :
    runRules t p (local_rules lan) =
      ({ p with mark := (p.mark &&& KEEP_FOREIGN_MARKS) ||| local_mark lan p }, none) := by
  set q : Packet := { p with mark := (p.mark &&& KEEP_FOREIGN_MARKS) ||| 0 } with hq
  have hclear : runRule t p [from_lan lan, set_mark 0] = (q, none) := by
    rw [from_lan, Nft.runRule_guard_true (by simp [Match.holds, Nft.Op.test, hd])]
    rfl
  have hdev : Match.holds t q (.iifname .eq lan.device) = true := by
    simp [Match.holds, Nft.Op.test, hq, hd]
  have hvip : Match.holds t q (.ip_daddr (.host PANEL_VIRTUAL_IP)) = false := by
    simp [Match.holds, Nft.AddrExpr.holds, hq, hv]
  have hfib : Match.holds t q .fib_daddr_local = false := by simpa [Match.holds, hq] using hl
  have hsub : Match.holds t q (.ip_daddr (.net lan.subnet)) = lan.subnet.contains p.daddr := by
    simp [Match.holds, Nft.AddrExpr.holds, hq, hp]
  rw [local_rules, runRules, hclear]
  simp only [List.map_cons, List.map_nil, runRules, from_lan, Nft.runRule_guard_true hdev,
    Nft.runRule_guard_false hvip, Nft.runRule_guard_false hfib, local_mark]
  cases hs : lan.subnet.contains p.daddr with
  | true =>
    rw [Nft.runRule_guard_true (hsub.trans hs)]
    simp only [set_mark, runRule, hq, keep_keep _ _ (show (0 : Mark) &&& _ = 0 by decide), if_true]
  | false =>
    rw [Nft.runRule_guard_false (hsub.trans hs)]
    rfl

theorem classification_bits {c : Match × Mark} (h : c ∈ classification egress policy) :
    ∃ target, c.2 = target_mark target := by
  rw [classification, fake_sets_eq, List.map_map, List.mem_append, List.mem_cons] at h
  rcases h with h | rfl | h
  · obtain ⟨target, -, rfl⟩ := List.mem_map.mp h
    exact ⟨_, rfl⟩
  · exact ⟨.direct, rfl⟩
  · obtain ⟨entry, -, rfl⟩ := List.mem_map.mp h
    exact ⟨_, rfl⟩

theorem target_mark_ne_zero (target : RouteTarget) : target_mark target ≠ 0 := by
  cases target <;> decide

/-- The classification and the fallback, as one block. -/
def decide_rules (lan : LanContext) (egress : VpnEgress) (policy : RoutingPolicy) :
    List Nft.Rule :=
  (classification egress policy).map (fun c =>
    Nft.classify lan.device GOFRO_MARK_MASK KEEP_FOREIGN_MARKS c.1 c.2) ++
    [fallback_rule lan egress policy]

theorem runRules_decide_marked (hd : p.iifname = lan.device)
    (hm : p.mark &&& GOFRO_MARK_MASK ≠ 0) :
    runRules t p (decide_rules lan egress policy) = (p, none) := by
  have hdev : Match.holds t p (.iifname .eq lan.device) = true := by
    simp [Match.holds, Nft.Op.test, hd]
  have hmark : Match.holds t p (.meta_mark GOFRO_MARK_MASK .eq 0) = false := by
    simpa [Match.holds, Nft.Op.test] using hm
  refine Nft.runRules_skip fun r hr => ?_
  rcases List.mem_append.mp hr with hr | hr
  · obtain ⟨c, -, rfl⟩ := List.mem_map.mp hr
    rw [Nft.classify, Nft.runRule_guard_true hdev, Nft.runRule_guard_false hmark]
  · rw [List.mem_singleton.mp hr, fallback_rule, from_lan, Nft.runRule_guard_true hdev, marked,
      Nft.runRule_guard_false hmark]

/-- **An unmarked packet gets the mark of the first rule that matches.** -/
theorem runRules_decide (hd : p.iifname = lan.device) (hm : p.mark &&& GOFRO_MARK_MASK = 0) :
    runRules t p (decide_rules lan egress policy) =
      ({ p with mark := (p.mark &&& KEEP_FOREIGN_MARKS) ||| classified egress policy t p },
        none) := by
  have hbits : ∀ c ∈ classification egress policy,
      ((p.mark &&& KEEP_FOREIGN_MARKS) ||| c.2) &&& GOFRO_MARK_MASK ≠ 0 := by
    intro c hc
    obtain ⟨target, ht⟩ := classification_bits hc
    rw [ht, target_mark_masked]
    exact target_mark_ne_zero target
  rw [decide_rules, Nft.runRules_append,
    Nft.runRules_classify hd hm (classification egress policy) hbits, classified]
  cases hfind : (classification egress policy).find? fun c => c.1.holds t p with
  | none =>
    have hmark : Match.holds t p (.meta_mark GOFRO_MARK_MASK .eq 0) = true := by
      simp [Match.holds, Nft.Op.test, hm]
    simp only [runRules, fallback_rule, from_lan, marked]
    rw [Nft.runRule_guard_true (by simp [Match.holds, Nft.Op.test, hd]),
      Nft.runRule_guard_true hmark]
    rfl
  | some c =>
    have hset := hbits c (List.mem_of_find?_eq_some hfind)
    simp only [runRules, fallback_rule, from_lan, marked]
    rw [Nft.runRule_guard_true (by simp [Match.holds, Nft.Op.test, hd]),
      Nft.runRule_guard_false (by simpa [Match.holds, Nft.Op.test] using hset)]
    rfl

/-- The end of the chain: the mark goes to the connection, and blocked packets are dropped. -/
theorem runRules_final (hd : p.iifname = lan.device) {target : RouteTarget}
    (hm : p.mark &&& GOFRO_MARK_MASK = target_mark target) :
    runRules t p (ct_mark_rules lan ++ [[from_lan lan, marked BLOCK_MARK, .verdict .drop]]) =
      ({ p with ct_mark := (p.ct_mark &&& KEEP_FOREIGN_MARKS) ||| target_mark target },
        if target = .block then some .drop else none) := by
  have hmark : ∀ (c : Mark) (bits : Mark),
      Match.holds t { p with ct_mark := c } (.meta_mark GOFRO_MARK_MASK .eq bits) =
        decide (target_mark target = bits) := by
    intro c bits
    simp [Match.holds, Nft.Op.test, hm]
  have hdev : ∀ c : Mark, Match.holds t { p with ct_mark := c } (.iifname .eq lan.device) =
      true := by
    intro c
    simp [Match.holds, Nft.Op.test, hd]
  cases target <;>
    simp [ct_mark_rules, runRules, runRule, from_lan, marked, set_ct_mark, hmark, hdev,
      target_mark, DIRECT_MARK, VPN_MARK, WARP_MARK, BLOCK_MARK]

/-! ## The whole chain -/

/-- What the policy decides about a packet to `dst` from a device. -/
def decided_target (egress : VpnEgress) (lan : LanContext) (policy : RoutingPolicy)
    (mappings : List FakeMapping) (exclusions : List MacAddress) (device : Nft.Ether)
    (dst : Ipv4Addr) : RouteTarget :=
  if device ∈ exclusions.map MacAddress.bits then .direct
  else match mappings.find? fun m => m.fake = dst with
    | some m => egress.target m.target
    | none =>
      if lan.subnet.contains dst then .direct else egress.target (policy.ip_target dst).1

/-- The packet after the chain, with the decided mark on it and on its connection. -/
structure Marked (target : RouteTarget) (p : Packet) (r : Packet × Option Nft.Verdict) : Prop where
  mark : r.1.mark &&& GOFRO_MARK_MASK = target_mark target
  foreign : r.1.mark &&& KEEP_FOREIGN_MARKS = p.mark &&& KEEP_FOREIGN_MARKS
  ct_mark : r.1.ct_mark &&& GOFRO_MARK_MASK = r.1.mark &&& GOFRO_MARK_MASK
  dropped : r.2 = some .drop ↔ target_mark target = BLOCK_MARK

theorem target_mark_keep (target : RouteTarget) :
    target_mark target &&& KEEP_FOREIGN_MARKS = 0 := by
  cases target <;> decide

theorem target_mark_eq_block {target : RouteTarget} :
    target_mark target = BLOCK_MARK ↔ target = .block := by
  cases target <;> decide

theorem mark_rules_eq (lan : LanContext) (egress : VpnEgress) (policy : RoutingPolicy)
    (panel_ports : PanelPorts) : mark_rules lan egress policy panel_ports =
      vip_rules lan panel_ports ++ (dns_owner_rules lan ++ ((exclusion_rule lan :: reply_rules lan)
        ++ (local_rules lan ++ (decide_rules lan egress policy ++ (ct_mark_rules lan ++
          [[from_lan lan, marked BLOCK_MARK, .verdict .drop]]))))) := by
  simp [mark_rules, decide_rules]

/-- A packet from the LAN, in the original direction, that leaves the router. -/
structure FromLan (lan : LanContext) (p : Packet) : Prop where
  iifname : p.iifname = lan.device
  nfproto : p.nfproto = .ipv4
  ct_direction : p.ct_direction = .original
  not_panel : p.daddr ≠ PANEL_VIRTUAL_IP
  not_local : p.daddr_local = false

/-- Fake addresses are distinct and in the pool. -/
structure Pooled (mappings : List FakeMapping) : Prop where
  nodup : (mappings.map FakeMapping.fake).Nodup
  range : ∀ m ∈ mappings, FIRST_FAKE ≤ m.fake ∧ m.fake ≤ LAST_FAKE

theorem classified_congr (m : Mark) :
    classified egress policy t { p with mark := m } = classified egress policy t p := by
  have haddr : ∀ c ∈ classification egress policy, ∃ e, c.1 = .ip_daddr e := by
    intro c hc
    rw [classification, List.mem_append, List.mem_cons] at hc
    rcases hc with hc | rfl | hc
    · obtain ⟨_, -, rfl⟩ := List.mem_map.mp hc
      exact ⟨_, rfl⟩
    · exact ⟨_, rfl⟩
    · obtain ⟨entry, -, rfl⟩ := List.mem_map.mp hc
      rw [ip_rule_match]
      split <;> exact ⟨_, rfl⟩
  rw [classified, classified]
  congr 2
  refine List.find?_congr fun c hc => ?_
  obtain ⟨e, he⟩ := haddr c hc
  rw [he]
  rfl

/-- After the router's own rules, the packet gets the mark of the decision. -/
theorem runRules_local_decide (hd : p.iifname = lan.device) {target : RouteTarget}
    (ht : (if lan.subnet.contains p.daddr then DIRECT_MARK
      else classified egress policy t p) = target_mark target) :
    runRules t { p with mark := (p.mark &&& KEEP_FOREIGN_MARKS) ||| local_mark lan p }
        (decide_rules lan egress policy) =
      ({ p with mark := (p.mark &&& KEEP_FOREIGN_MARKS) ||| target_mark target }, none) := by
  set q : Packet := { p with mark := (p.mark &&& KEEP_FOREIGN_MARKS) ||| local_mark lan p } with hq
  have hqd : q.iifname = lan.device := hd
  split_ifs at ht with hs
  · have hm : local_mark lan p = DIRECT_MARK := by rw [local_mark, if_pos hs]
    have hmarked : q.mark &&& GOFRO_MARK_MASK ≠ 0 := by
      rw [hq, hm]
      show ((p.mark &&& KEEP_FOREIGN_MARKS) ||| target_mark .direct) &&& GOFRO_MARK_MASK ≠ 0
      rw [target_mark_masked]
      exact target_mark_ne_zero .direct
    rw [runRules_decide_marked hqd hmarked, hq, hm, ht]
  · have hm : local_mark lan p = 0 := by rw [local_mark, if_neg hs]
    have hclear : q.mark &&& GOFRO_MARK_MASK = 0 := by
      have hc : KEEP_FOREIGN_MARKS &&& GOFRO_MARK_MASK = 0 := by decide
      rw [hq, hm]
      show ((p.mark &&& KEEP_FOREIGN_MARKS) ||| 0#32) &&& GOFRO_MARK_MASK = 0
      rw [BitVec.or_zero, BitVec.and_assoc, hc]
      exact BitVec.and_zero
    rw [runRules_decide hqd hclear, hq, classified_congr, ht, hm, keep_keep _ _ (by decide)]

/-- The rules of the chain, from the packet's first mark to the decision. -/
theorem runRules_route (hp : FromLan lan p) (h : Rendered base mappings exclusions t)
    (hx : p.ether_saddr ∉ exclusions.map MacAddress.bits) {target : RouteTarget}
    (ht : (if lan.subnet.contains p.daddr then DIRECT_MARK
      else classified egress policy t p) = target_mark target) :
    ∃ r, runRules t p ((exclusion_rule lan :: reply_rules lan) ++ (local_rules lan ++
      (decide_rules lan egress policy ++ (ct_mark_rules lan ++
        [[from_lan lan, marked BLOCK_MARK, .verdict .drop]])))) = r ∧ Marked target p r := by
  set q : Packet := { p with mark := (p.mark &&& KEEP_FOREIGN_MARKS) ||| target_mark target }
    with hq
  have hqd : q.iifname = lan.device := hp.iifname
  have hfinal := runRules_final (t := t) hqd (target_mark_masked p.mark target)
  refine ⟨_, rfl, ?_⟩
  rw [Nft.runRules_append, runRules_not_excluded h hp.iifname hp.ct_direction hx]
  simp only
  rw [Nft.runRules_append,
    runRules_local hp.iifname hp.nfproto hp.not_panel hp.not_local]
  simp only
  rw [Nft.runRules_append, runRules_local_decide hp.iifname ht]
  simp only
  rw [hfinal]
  refine ⟨target_mark_masked _ _, keep_keep _ _ (target_mark_keep _), ?_, ?_⟩
  · show ((p.ct_mark &&& KEEP_FOREIGN_MARKS) ||| target_mark target) &&& GOFRO_MARK_MASK =
      ((p.mark &&& KEEP_FOREIGN_MARKS) ||| target_mark target) &&& GOFRO_MARK_MASK
    rw [target_mark_masked, target_mark_masked]
  · rw [target_mark_eq_block]
    split_ifs with hb <;> simp [hb]

end

section

variable [RegexEngine] [Idna] {lan : LanContext} {dns_port : ℕ} {egress : VpnEgress}
  {policy : RoutingPolicy} {panel_ports : PanelPorts} {mappings : List FakeMapping}
  {exclusions : List MacAddress} {t : Table} {p : Packet}

theorem Rendered.geoSets (hc : Compiled policy)
    (h : Rendered (policy_edits lan dns_port egress policy panel_ports) mappings exclusions t) :
    GeoSets policy t := by
  intro entry hmem value hm
  have hn := hc.ip_rule_indices_nodup.sublist (enabled_ip_rules_sublist policy)
  exact Option.some.inj
    ((h.rest _ (not_owned_ip_rule_set _)).symm.trans (runObject_ip_rule_set hn hmem hm))

/-- **The chain marks a packet as the policy decides**, in every table with this policy. -/
theorem Rendered.marked (hc : Compiled policy) (hlan : validate_lan lan = .ok ())
    (hm : Pooled mappings)
    (h : Rendered (policy_edits lan dns_port egress policy panel_ports) mappings exclusions t)
    (hp : FromLan lan p) :
    Marked (decided_target egress lan policy mappings exclusions p.ether_saddr p.daddr) p
      (Nft.runChain t "gofro_mark" p) := by
  have hmem : ("gofro_mark", ⟨⟨"filter", "prerouting", -150⟩,
      mark_rules lan egress policy panel_ports⟩) ∈
        policy_chains lan dns_port egress policy panel_ports := by simp [policy_chains]
  have hchain : t (.chain "gofro_mark") = some ⟨⟨"filter", "prerouting", -150⟩,
      mark_rules lan egress policy panel_ports⟩ :=
    Option.some.inj ((h.rest _ (not_owned_chain _)).symm.trans (runObject_policy_chain hmem))
  rw [Nft.runChain, Table.chain, hchain]
  simp only
  have hdns : ∃ c, runRules t p (dns_owner_rules lan) = ({ p with ct_mark := c }, none) :=
    runRules_dns_owner
  obtain ⟨c, hdns⟩ := hdns
  set q : Packet := { p with ct_mark := c } with hq
  have hstart : ∀ rules, runRules t p (vip_rules lan panel_ports ++
      (dns_owner_rules lan ++ rules)) = runRules t q rules := by
    intro rules
    rw [Nft.runRules_append, runRules_vip hp.not_panel]
    simp only
    rw [Nft.runRules_append, hdns]
  have hqp : FromLan lan q := ⟨hp.1, hp.2, hp.3, hp.4, hp.5⟩
  rw [mark_rules_eq, hstart]
  by_cases hx : p.ether_saddr ∈ exclusions.map MacAddress.bits
  · rw [decided_target, if_pos hx, Nft.runRules_append, runRules_excluded h hqp.iifname hx]
    have hd : DIRECT_MARK = target_mark .direct := rfl
    refine ⟨?_, keep_keep _ _ (target_mark_keep .direct), ?_, by simp; decide⟩
    · exact target_mark_masked _ .direct
    · simp only [hd, target_mark_masked]
  · have ht : (if lan.subnet.contains q.daddr then DIRECT_MARK else classified egress policy t q) =
        target_mark (decided_target egress lan policy mappings exclusions p.ether_saddr p.daddr) := ?_
    · obtain ⟨r, hr, hmarked⟩ := runRules_route hqp h hx ht
      rw [hr]
      exact ⟨hmarked.mark, hmarked.foreign, hmarked.ct_mark, hmarked.dropped⟩
    · rw [decided_target, if_neg hx]
      cases hf : mappings.find? fun m => m.fake = p.daddr with
      | some m =>
        have hmem := List.mem_of_find?_eq_some hf
        have he : m.fake = p.daddr := by simpa using List.find?_some hf
        have hout : lan.subnet.contains p.daddr = false :=
          validate_lan_disjoint hlan (by simp [RESERVED])
            (FAKE_DNS_contains (he ▸ hm.range m hmem))
        rw [if_neg (by rw [hq, hout]; simp)]
        exact classified_fake h hqp.nfproto hm.nodup hmem he
      | none =>
        have hno : ∀ m ∈ mappings, m.fake ≠ p.daddr := by simpa using hf
        simp only
        split_ifs with hs
        · rfl
        · exact classified_other h (h.geoSets hc) hc hqp.nfproto hno

/-- **The generated ruleset refines the policy**: the script always loads, and the chain gives every
packet of the LAN the mark that the policy decides, on the packet and on its connection; it drops
exactly the blocked ones. -/
theorem render_refines (hc : Compiled policy) (egress : VpnEgress)
    (hlan : validate_lan lan = .ok ()) (hm : Pooled mappings) (exclusions : List MacAddress)
    (dns_port : ℕ) (panel_ports : PanelPorts) (k : Nft.Kernel) :
    ∃ t, Nft.run k (render_with_exclusions lan dns_port egress policy mappings panel_ports
        exclusions) = some (Function.update k TABLE (some t)) ∧
      ∀ p, FromLan lan p → Marked
        (decided_target egress lan policy mappings exclusions p.ether_saddr p.daddr) p
        (Nft.runChain t "gofro_mark" p) := by
  have hn := hc.ip_rule_indices_nodup.sublist (enabled_ip_rules_sublist policy)
  have ht : ∃ t, Nft.runEdits .empty
      (table_edits lan dns_port egress policy mappings panel_ports exclusions) = some t :=
    exists_rendered hn hm.nodup
  obtain ⟨t, ht⟩ := ht
  refine ⟨t, by rw [render_with_exclusions, Nft.run_load, ht]; rfl, fun p hp => ?_⟩
  exact ((runEdits_table hm.nodup).mp ht).marked hc hlan hm hp

end

/-! ### A table with one rule and one lease -/

def sampleLan : LanContext where
  device := "br-lan"
  address := Ipv4.addr 192 168 1 1
  subnet := ⟨Ipv4.addr 192 168 1 0, 24, by norm_num⟩

/-- `1.1.1.0/24` through WARP, everything else through the VPN. -/
def sampleRouting : RoutingConfig :=
  ⟨[], [⟨"dns", true, .cidr "1.1.1.0/24", .warp⟩], .vpn, .rules, none⟩

def samplePolicy : RoutingPolicy where
  config := sampleRouting
  geodata := .empty
  ip_rules := [some ⟨Ipv4.addr 1 1 1 0, 24, by norm_num⟩]

def sampleMappings : List FakeMapping := [⟨FIRST_FAKE, Ipv4.addr 8 8 8 8, .block⟩]

/-- A regex engine and domain functions for names that are ASCII and lower case already. -/
@[reducible] def sampleRegex : RegexEngine := ⟨fun _ => true, fun _ _ => false⟩
@[reducible] def sampleIdna : Idna := ⟨id, some⟩

theorem samplePolicy_compiled :
    letI := sampleRegex
    letI := sampleIdna
    Compiled samplePolicy :=
  letI := sampleRegex
  letI := sampleIdna
  ⟨.empty, ⟨fun _ => true, fun _ => true⟩, sampleRouting, .empty, .empty,
    RoutingPolicy.CachesFor.empty _, ⟨sampleRouting, by decide +kernel⟩, by decide +kernel⟩

/-- `render_refines` for this table, with the tunnel on but no WARP identity. -/
theorem render_refines_sample :
    ∃ t, Nft.run (fun _ => none) (render_with_exclusions sampleLan 5353 ⟨true, none⟩ samplePolicy
        sampleMappings ⟨80, 443⟩ []) =
          some (Function.update (fun _ => none) TABLE (some t)) ∧
      ∀ p, FromLan sampleLan p → Marked
        (decided_target ⟨true, none⟩ sampleLan samplePolicy sampleMappings [] p.ether_saddr p.daddr)
        p (Nft.runChain t "gofro_mark" p) :=
  letI := sampleRegex
  letI := sampleIdna
  render_refines samplePolicy_compiled ⟨true, none⟩ (by decide +kernel)
    ⟨by decide, by decide⟩ [] 5353 ⟨80, 443⟩ (fun _ => none)

end Gofro.Agent

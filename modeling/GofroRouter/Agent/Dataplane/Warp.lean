import GofroRouter.Agent.Dataplane.Mark
import GofroRouter.Lib.Conntrack

/-!
# WARP traffic stays in the tunnel

Packets of the LAN and DNS packets of the router itself, on their way out through the chains of the
routing table, while tables are replaced and connections keep the source of their first packet.

* `LoadedTable`: a loaded table with the policy it was rendered from. `Crossing.pass`: a packet from
  its first chain to its departure, whatever route and foreign translation the kernel gives it.
* `Gated`: what a packet is once it is through the guards. `LoadedTable.forward_gated`,
  `LoadedTable.output_gated`: the two guards establish it.
* **`warp_contained`**: over every run of packets and tables, a WARP packet leaves through the tunnel
  with the WARP identity as source, nothing else leaves with such a source, and no connection sends
  both.
* **`ipv6_contained`**: no IPv6 packet of a device under policy is forwarded while the policy can
  send a destination into the tunnel.
-/

namespace Gofro.Agent

open Nft (Table Packet Match Mark Conn Sent hooked runFilters runSnat)
open RoutingPolicy (Compiled)
open Geodata (RegexEngine)

/-! ## Loaded tables -/

/-- A table that has been loaded, and what it was rendered from. -/
structure LoadedTable [RegexEngine] [Idna] where
  lan : LanContext
  dns_port : ℕ
  config : ControllerConfig
  policy : RoutingPolicy
  mappings : List FakeMapping
  panel_ports : PanelPorts
  exclusions : List MacAddress
  table : Table
  lan_valid : validate_lan lan = .ok ()
  compiled : Compiled policy
  pooled : Pooled mappings
  rendered : Rendered (policy_edits lan dns_port (VpnEgress.from_config config) policy panel_ports)
    mappings exclusions table

/-- Marked for WARP. -/
def Warp (m : Mark) : Prop := m &&& GOFRO_MARK_MASK = WARP_MARK

instance (m : Mark) : Decidable (Warp m) := inferInstanceAs (Decidable (_ = _))

theorem source_address_contains {address a : Ipv4Addr} (h : source_address address = some a) :
    SOURCE_SUBNET.contains a = true := by
  rw [source_address] at h
  split_ifs at h with hc
  have hhost : address.toNat % 256 < 256 := Nat.mod_lt _ (by norm_num)
  generalize address.toNat % 256 = host at h hhost
  cases h
  have ha : (Ipv4.addr 10 202 1 host).toNat = 10 * 2 ^ 24 + 202 * 2 ^ 16 + 1 * 2 ^ 8 + host := by
    rw [Ipv4.addr, BitVec.toNat_ofNat, Nat.mod_eq_of_lt (by omega)]
  have hn : SOURCE_SUBNET.addr.toNat = 10 * 2 ^ 24 + 202 * 2 ^ 16 + 1 * 2 ^ 8 := by decide
  have hs : SOURCE_SUBNET.size = 256 := by decide
  rw [Ipv4.Net.contains_iff, ha, hn, hs]
  omega

theorem from_config_contains {config : ControllerConfig} {a : Ipv4Addr}
    (h : (VpnEgress.from_config config).warp_source = some a) :
    SOURCE_SUBNET.contains a = true := by
  simp only [VpnEgress.from_config, Option.bind_eq_bind, Option.bind_eq_some_iff] at h
  obtain ⟨server, -, management, -, address, -, network, -, h⟩ := h
  exact source_address_contains h

/-! ## Guards -/

/-- What a packet is once the guards of its hook have let it through. -/
structure Gated (egress : VpnEgress) (p : Packet) : Prop where
  identity : SOURCE_SUBNET.contains p.ct_reply_daddr = true → Warp p.mark
  warp : Warp p.mark → p.oifname = "gt0" ∧ ∃ a, egress.active_source = some a ∧
    (p.ct_confirmed = true → p.ct_reply_daddr = a)

theorem host_net_contains {a b : Ipv4Addr} : (host_net a).contains b = true ↔ b = a := by
  have hs : (host_net a).size = 1 := rfl
  rw [Ipv4.Net.contains_iff, hs, Nat.div_one, Nat.div_one]
  exact BitVec.toNat_inj

theorem active_source_of_target {egress : VpnEgress} {target : RouteTarget}
    (h : egress.target target = .warp) : ∃ a, egress.active_source = some a := by
  rw [VpnEgress.target] at h
  split_ifs at h with hn
  obtain ⟨enabled, warp_source⟩ := egress
  cases target <;> cases enabled <;> cases warp_source <;>
    simp_all [effective_target, VpnEgress.active_source]

theorem target_mark_warp {target : RouteTarget} (h : target_mark target = WARP_MARK) :
    target = .warp := by
  cases target
  · exact absurd h (by decide)
  · exact absurd h (by decide)
  · rfl
  · exact absurd h (by decide)

theorem active_source_of_decided {egress : VpnEgress} {lan : LanContext} {policy : RoutingPolicy}
    {mappings : List FakeMapping} {exclusions : List MacAddress} {device : Nft.Ether}
    {dst : Ipv4Addr}
    (h : decided_target egress lan policy mappings exclusions device dst = .warp) :
    ∃ a, egress.active_source = some a := by
  rw [decided_target] at h
  by_cases hx : device ∈ exclusions.map MacAddress.bits
  · rw [if_pos hx] at h
    cases h
  rw [if_neg hx] at h
  cases hf : mappings.find? fun m => m.fake = dst with
  | some m =>
    rw [hf] at h
    exact active_source_of_target h
  | none =>
    rw [hf] at h
    by_cases hs : lan.subnet.contains dst = true
    · simp [hs] at h
    · simp only [hs] at h
      exact active_source_of_target h

section

variable [RegexEngine] [Idna] (r : LoadedTable)

namespace LoadedTable

/-- The ways out that the table was rendered for. -/
def egress : VpnEgress := VpnEgress.from_config r.config

/-- The table that the full script leaves. -/
def load (lan : LanContext) (dns_port : ℕ) (config : ControllerConfig) (policy : RoutingPolicy)
    (mappings : List FakeMapping) (panel_ports : PanelPorts) (exclusions : List MacAddress)
    (lan_valid : validate_lan lan = .ok ()) (compiled : Compiled policy)
    (pooled : Pooled mappings) : LoadedTable where
  lan; dns_port; config; policy; mappings; panel_ports; exclusions; lan_valid; compiled; pooled
  table := (Nft.runEdits .empty (table_edits lan dns_port (VpnEgress.from_config config) policy
    mappings panel_ports exclusions)).getD .empty
  rendered := by
    obtain ⟨t, ht⟩ : ∃ t, Nft.runEdits .empty (table_edits lan dns_port (VpnEgress.from_config config)
        policy mappings panel_ports exclusions) = some t := exists_rendered
      (compiled.ip_rule_indices_nodup.sublist (enabled_ip_rules_sublist policy)) pooled.nodup
    rw [ht]
    exact (runEdits_table pooled.nodup).mp ht

/-- The table is the one that nft has after the script, whatever it had before. -/
theorem run_load (k : Nft.Kernel) (lan : LanContext) (dns_port : ℕ) (config : ControllerConfig)
    (policy : RoutingPolicy) (mappings : List FakeMapping) (panel_ports : PanelPorts)
    (exclusions : List MacAddress) (lan_valid : validate_lan lan = .ok ())
    (compiled : Compiled policy) (pooled : Pooled mappings) :
    Nft.run k (render_with_exclusions lan dns_port (VpnEgress.from_config config) policy mappings
      panel_ports exclusions) = some (Function.update k TABLE (some (load lan dns_port config policy
        mappings panel_ports exclusions lan_valid compiled pooled).table)) := by
  obtain ⟨t, ht⟩ : ∃ t, Nft.runEdits .empty (table_edits lan dns_port (VpnEgress.from_config config)
      policy mappings panel_ports exclusions) = some t := exists_rendered
    (compiled.ip_rule_indices_nodup.sublist (enabled_ip_rules_sublist policy)) pooled.nodup
  have htable : (load lan dns_port config policy mappings panel_ports exclusions lan_valid compiled
      pooled).table = t := by
    show (Nft.runEdits .empty _).getD .empty = t
    rw [ht, Option.getD_some]
  rw [render_with_exclusions, Nft.run_load, ht, htable, Option.map_some]

/-- The chains of the table. -/
def chains : List (String × Nft.Chain) :=
  policy_chains r.lan r.dns_port r.egress r.policy r.panel_ports

theorem rules_of_mem {entry : String × Nft.Chain} (h : entry ∈ r.chains) :
    Nft.rules r.table entry.1 = entry.2.rules := by
  have hchain : r.table (.chain entry.1) = some entry.2 :=
    Option.some.inj ((r.rendered.rest _ (not_owned_chain _)).symm.trans (runObject_policy_chain h))
  rw [Nft.rules, Table.chain, hchain]
  rfl

theorem prerouting : hooked "filter" "prerouting" r.chains = ["gofro_mark"] := by
  unfold chains policy_chains
  cases r.egress.active_source <;> split_ifs <;> rfl

theorem output : hooked "filter" "output" r.chains = ["gofro_dns_egress"] := by
  unfold chains policy_chains
  cases r.egress.active_source <;> split_ifs <;> rfl

theorem postrouting : hooked "nat" "postrouting" r.chains =
    (r.egress.active_source.map fun _ => "gofro_warp_snat").toList := by
  unfold chains policy_chains
  cases r.egress.active_source <;> split_ifs <;> rfl

theorem forward : hooked "filter" "forward" r.chains =
    "gofro_warp_guard" :: ((if r.egress.enabled then ["gofro_mss"] else []) ++
      if r.egress.enabled || r.policy.uses_warp then ["gofro_ipv6"] else []) := by
  unfold chains policy_chains
  cases r.egress.active_source <;> split_ifs <;> rfl

theorem mem_warp_guard : ("gofro_warp_guard", ⟨⟨"filter", "forward", -150⟩,
    warp_guard_rules r.lan r.egress⟩) ∈ r.chains := by
  simp [chains, policy_chains]

theorem mem_dns_egress : ("gofro_dns_egress", ⟨⟨"filter", "output", 0⟩,
    dns_egress_rules r.egress.active_source⟩) ∈ r.chains := by
  simp [chains, policy_chains]

theorem mem_warp_snat {a : Ipv4Addr} (h : r.egress.active_source = some a) :
    ("gofro_warp_snat", ⟨⟨"nat", "postrouting", 99⟩, warp_snat_rules r.lan a⟩) ∈ r.chains := by
  simp [chains, policy_chains, h]

theorem mem_mss (h : r.egress.enabled = true) :
    ("gofro_mss", ⟨⟨"filter", "forward", -149⟩, mss_rules r.lan⟩) ∈ r.chains := by
  simp [chains, policy_chains, h]

theorem mem_ipv6 (h : (r.egress.enabled || r.policy.uses_warp) = true) :
    ("gofro_ipv6", ⟨⟨"filter", "forward", 0⟩, ipv6_rules r.lan⟩) ∈ r.chains := by
  simp [chains, policy_chains, h]

theorem forward_fence : ∀ c ∈ hooked "filter" "forward" r.chains,
    ∀ rule ∈ Nft.rules r.table c, Nft.fence rule = true := by
  intro c hc rule hrule
  rw [r.forward, List.mem_cons, List.mem_append] at hc
  rcases hc with rfl | hc | hc
  · rw [r.rules_of_mem r.mem_warp_guard] at hrule
    simp only [warp_guard_rules] at hrule
    cases h : r.egress.active_source with
    | none =>
      rw [h] at hrule
      simp only [List.mem_cons, List.not_mem_nil, or_false] at hrule
      subst hrule
      rfl
    | some a =>
      rw [h] at hrule
      simp only [List.mem_cons, List.not_mem_nil, or_false] at hrule
      rcases hrule with rfl | rfl | rfl <;> rfl
  · split_ifs at hc with h
    · cases List.mem_singleton.mp hc
      rw [r.rules_of_mem (r.mem_mss h)] at hrule
      obtain ⟨devices, -, rfl⟩ := List.mem_map.mp hrule
      rfl
    · cases hc
  · split_ifs at hc with h
    · cases List.mem_singleton.mp hc
      rw [r.rules_of_mem (r.mem_ipv6 h)] at hrule
      cases List.mem_singleton.mp hrule
      rfl
    · cases hc

theorem output_fence : ∀ c ∈ hooked "filter" "output" r.chains,
    ∀ rule ∈ Nft.rules r.table c, Nft.fence rule = true := by
  intro c hc rule hrule
  rw [r.output, List.mem_singleton] at hc
  subst hc
  rw [r.rules_of_mem r.mem_dns_egress] at hrule
  simp only [dns_egress_rules, List.mem_append, List.mem_flatMap, List.mem_cons, List.not_mem_nil,
    or_false] at hrule
  rcases hrule with ⟨mark, -, rfl | rfl⟩ | rfl | rfl
  · rfl
  · rfl
  · rfl
  · cases r.egress.active_source <;> rfl

end LoadedTable

variable {r} {p q : Packet}

/-- **The guard of forwarded packets.** A packet of the LAN that it lets through, marked for WARP
only while there is a WARP identity, is gated. -/
theorem LoadedTable.forward_gated (hd : p.iifname = r.lan.device) (ho : p.ct_direction = .original)
    (hw : Warp p.mark → ∃ a, r.egress.active_source = some a)
    (h : runFilters r.table (hooked "filter" "forward" r.chains) p = some q) :
    Nft.Alike p q ∧ Gated r.egress p := by
  obtain ⟨halike, hstop⟩ := Nft.runFilters_fence r.forward_fence h
  refine ⟨halike, ?_⟩
  have hguard := hstop "gofro_warp_guard" (by rw [r.forward]; exact List.mem_cons_self)
  rw [r.rules_of_mem r.mem_warp_guard] at hguard
  constructor
  · intro hc
    have hs := hguard
      [.iifname .eq r.lan.device, .ct_direction .original, .ct_reply_daddr .eq SOURCE_SUBNET,
        .meta_mark GOFRO_MARK_MASK .ne WARP_MARK] .drop List.mem_cons_self (by simp [Match.plain])
    show p.mark &&& GOFRO_MARK_MASK = WARP_MARK
    simpa [Match.holds, Nft.Op.test, hd, ho, hc] using hs
  · intro hm
    obtain ⟨a, ha⟩ := hw hm
    have hmark : p.mark &&& GOFRO_MARK_MASK = WARP_MARK := hm
    simp only [warp_guard_rules, ha] at hguard
    have htunnel := hguard
      [.iifname .eq r.lan.device, .meta_mark GOFRO_MARK_MASK .eq WARP_MARK, .oifname .ne "gt0"]
      .drop (by simp [Nft.guarded, from_lan, marked]) (by simp [Match.plain])
    have hbound := hguard
      [.iifname .eq r.lan.device, .meta_mark GOFRO_MARK_MASK .eq WARP_MARK, .ct_confirmed,
        .ct_reply_daddr .ne (host_net a)]
      .drop (by simp [Nft.guarded, from_lan, marked]) (by simp [Match.plain])
    refine ⟨by simpa [Match.holds, Nft.Op.test, hd, hmark] using htunnel, a, ha, fun hconf => ?_⟩
    have hb : (host_net a).contains p.ct_reply_daddr = true := by
      simpa [Match.holds, Nft.Op.test, hd, hmark, hconf] using hbound
    exact host_net_contains.mp hb

/-- A DNS packet of the router. -/
structure Dns (p : Packet) : Prop where
  nfproto : p.nfproto = .ipv4
  l4proto : p.l4proto = .tcp ∨ p.l4proto = .udp
  dport : p.dport = 53

/-- **The guard of the router's own DNS packets.** What it lets through is gated, and stays in the
tunnel if it is marked for the VPN. -/
theorem LoadedTable.output_gated (hp : Dns p)
    (h : runFilters r.table (hooked "filter" "output" r.chains) p = some q) :
    Nft.Alike p q ∧ Gated r.egress p ∧
      (p.mark &&& GOFRO_MARK_MASK = VPN_MARK → p.oifname = "gt0") := by
  obtain ⟨halike, hstop⟩ := Nft.runFilters_fence r.output_fence h
  have hguard := hstop "gofro_dns_egress" (by rw [r.output]; exact List.mem_cons_self)
  rw [r.rules_of_mem r.mem_dns_egress] at hguard
  have hdns : p.nfproto = .ipv4 ∧ (p.l4proto = .tcp ∨ p.l4proto = .udp) ∧ p.dport = 53 :=
    ⟨hp.nfproto, hp.l4proto, hp.dport⟩
  -- a marked packet leaves through the tunnel only
  have htunnel : ∀ mark ∈ [VPN_MARK, WARP_MARK], p.mark &&& GOFRO_MARK_MASK = mark →
      p.oifname = "gt0" := by
    intro mark hmem hm
    have hs := hguard
      [.nfproto .ipv4, .l4proto .eq [.tcp, .udp], .th_dport [53],
        .meta_mark GOFRO_MARK_MASK .eq mark, .oifname .ne "gt0"] .drop
      (by
        refine List.mem_append_left _ (List.mem_flatMap.mpr ⟨mark, hmem, ?_⟩)
        exact List.mem_cons_of_mem _ List.mem_cons_self) (by simp [Match.plain])
    simpa [Match.holds, Nft.Op.test, hdns, hm] using hs
  refine ⟨halike, ⟨fun hc => ?_, fun hm => ?_⟩, htunnel VPN_MARK (by simp)⟩
  · have hs := hguard
      [.nfproto .ipv4, .l4proto .eq [.tcp, .udp], .th_dport [53],
        .ct_reply_daddr .eq SOURCE_SUBNET, .meta_mark GOFRO_MARK_MASK .ne WARP_MARK] .drop
      (List.mem_append_right _ List.mem_cons_self) (by simp [Match.plain])
    show p.mark &&& GOFRO_MARK_MASK = WARP_MARK
    simpa [Match.holds, Nft.Op.test, hdns, hc] using hs
  · refine ⟨htunnel WARP_MARK (by simp) hm, ?_⟩
    have hmark : p.mark &&& GOFRO_MARK_MASK = WARP_MARK := hm
    cases ha : r.egress.active_source with
    | none =>
      simp only [dns_egress_rules, ha] at hguard
      have hs := hguard
        [.nfproto .ipv4, .l4proto .eq [.tcp, .udp], .th_dport [53],
          .meta_mark GOFRO_MARK_MASK .eq WARP_MARK] .drop
        (List.mem_append_right _ (List.mem_cons_of_mem _ List.mem_cons_self))
        (by simp [Match.plain])
      simp [Match.holds, Nft.Op.test, hdns, hmark] at hs
    | some a =>
      simp only [dns_egress_rules, ha] at hguard
      have hs := hguard
        [.nfproto .ipv4, .l4proto .eq [.tcp, .udp], .th_dport [53],
          .meta_mark GOFRO_MARK_MASK .eq WARP_MARK, .ct_confirmed,
          .ct_reply_daddr .ne (host_net a)] .drop
        (List.mem_append_right _ (List.mem_cons_of_mem _ List.mem_cons_self))
        (by simp [Match.plain])
      refine ⟨a, rfl, fun hconf => ?_⟩
      have hb : (host_net a).contains p.ct_reply_daddr = true := by
        simpa [Match.holds, Nft.Op.test, hdns, hmark, hconf] using hs
      exact host_net_contains.mp hb

/-! ## Source translation -/

/-- The matches of the two rules that give a packet the WARP identity. -/
def warp_snat_matches (lan : LanContext) : List (List Match) :=
  [[.iifname .eq lan.device, .oifname .eq "gt0", .meta_mark GOFRO_MARK_MASK .eq WARP_MARK],
    [.oifname .eq "gt0", .nfproto .ipv4, .l4proto .eq [.tcp, .udp], .th_dport [53],
      .meta_mark GOFRO_MARK_MASK .eq WARP_MARK]]

omit [RegexEngine] [Idna] in
theorem warp_snat_rules_eq (lan : LanContext) (a : Ipv4Addr) : warp_snat_rules lan a =
    (warp_snat_matches lan).map fun ms => Nft.guarded ms (.snat a) := rfl

theorem LoadedTable.runSnat_eq (r : LoadedTable) (p : Packet) :
    runSnat r.table (hooked "nat" "postrouting" r.chains) p = r.egress.active_source.filter
      fun _ => decide (∃ ms ∈ warp_snat_matches r.lan, ∀ m ∈ ms, m.holds r.table p = true) := by
  rw [r.postrouting]
  cases ha : r.egress.active_source with
  | none => rfl
  | some a =>
    rw [Option.map_some, Option.toList_some, runSnat, Nft.runChain_eq,
      r.rules_of_mem (r.mem_warp_snat ha), warp_snat_rules_eq, Nft.runRules_guarded]
    simp only
    split_ifs with h
    · simp [Option.filter, h]
    · simp [Option.filter, h, runSnat]

theorem LoadedTable.warp_of_runSnat {a : Ipv4Addr}
    (h : runSnat r.table (hooked "nat" "postrouting" r.chains) p = some a) :
    Warp p.mark := by
  rw [r.runSnat_eq, Option.filter_eq_some_iff] at h
  obtain ⟨-, h⟩ := h
  obtain ⟨ms, hms, h⟩ := of_decide_eq_true h
  have hm : Match.holds r.table p (.meta_mark GOFRO_MARK_MASK .eq WARP_MARK) = true := by
    simp only [warp_snat_matches, List.mem_cons, List.not_mem_nil, or_false] at hms
    rcases hms with rfl | rfl <;> exact h _ (by simp)
  show p.mark &&& GOFRO_MARK_MASK = WARP_MARK
  simpa [Match.holds, Nft.Op.test] using hm

theorem LoadedTable.runSnat_warp (hp : p.iifname = r.lan.device ∨ Dns p) (hw : Warp p.mark)
    (ho : p.oifname = "gt0") :
    runSnat r.table (hooked "nat" "postrouting" r.chains) p = r.egress.active_source := by
  have hmark : p.mark &&& GOFRO_MARK_MASK = WARP_MARK := hw
  have hex : ∃ ms ∈ warp_snat_matches r.lan, ∀ m ∈ ms, m.holds r.table p = true := by
    rcases hp with hp | hp
    · refine ⟨_, List.mem_cons_self, ?_⟩
      simp [Match.holds, Nft.Op.test, hp, ho, hmark]
    · refine ⟨_, List.mem_cons_of_mem _ List.mem_cons_self, ?_⟩
      simp [Match.holds, Nft.Op.test, hp.nfproto, hp.l4proto, hp.dport, ho, hmark]
  rw [r.runSnat_eq, decide_eq_true hex]
  cases r.egress.active_source <;> rfl

/-! ## Departures -/

/-- A packet leaves as WARP traffic exactly when its source is a WARP identity, and then through the
tunnel, with the identity of the table. -/
structure Contained (egress : VpnEgress) (s : Sent) : Prop where
  identity : SOURCE_SUBNET.contains s.source = true → Warp s.mark
  warp : Warp s.mark → s.device = "gt0" ∧ egress.active_source = some s.source

/-- A gated packet departs contained, if other tables make up no WARP identity. -/
theorem LoadedTable.leave_contained {c : Conn} {filters : List String} {other : Ipv4Addr}
    (hp : p.iifname = r.lan.device ∨ Dns p) (hconf : p.ct_confirmed = c.binding.isSome)
    (hreply : p.ct_reply_daddr = c.replies)
    (hgate : ∀ q, runFilters r.table filters p = some q → Nft.Alike p q ∧ Gated r.egress p)
    (hother : other = c.source ∨ SOURCE_SUBNET.contains other = false) :
    ∀ s ∈ (c.leave r.table filters (hooked "nat" "postrouting" r.chains) other p).2,
      (∃ q, runFilters r.table filters p = some q) ∧ s.mark = p.mark ∧ s.device = p.oifname ∧
        Contained r.egress s := by
  intro s hs
  rw [Conn.leave] at hs
  cases hq : runFilters r.table filters p with
  | none =>
    rw [hq] at hs
    cases hs
  | some q =>
    rw [hq] at hs
    obtain ⟨halike, hg⟩ := hgate q hq
    cases hs
    obtain ⟨ct, seg, rfl⟩ := halike
    set q : Packet := { p with ct_mark := ct, maxseg := seg } with hqe
    have hqp : q.iifname = r.lan.device ∨ Dns q :=
      hp.imp_right fun h => ⟨h.nfproto, h.l4proto, h.dport⟩
    refine ⟨⟨q, rfl⟩, rfl, rfl, fun hc => ?_, fun hw => ?_⟩
    · cases hb : c.binding with
      | some b =>
        have hreply : p.ct_reply_daddr = b := by rw [hreply, Conn.replies, hb]; rfl
        refine hg.identity ?_
        rw [hreply]
        simpa [hb] using hc
      | none =>
        cases hn : runSnat r.table (hooked "nat" "postrouting" r.chains) q with
        | some a =>
          have hw : Warp q.mark := LoadedTable.warp_of_runSnat hn
          exact hw
        | none =>
          have hc : SOURCE_SUBNET.contains other = true := by simpa [hb, hn] using hc
          rcases hother with ho | ho
          · refine hg.identity ?_
            rw [hreply, Conn.replies, hb]
            exact ho ▸ hc
          · rw [ho] at hc
            cases hc
    · obtain ⟨hdev, a, ha, hbound⟩ := hg.warp hw
      refine ⟨hdev, ?_⟩
      cases hb : c.binding with
      | some b =>
        have hreply : p.ct_reply_daddr = b := by rw [hreply, Conn.replies, hb]; rfl
        have hba : b = a := hreply ▸ hbound (by rw [hconf, hb]; rfl)
        simpa [hba] using ha
      | none =>
        have hn := LoadedTable.runSnat_warp hqp hw hdev
        simp only [Option.getD_none, hn, ha, Option.getD_some]

/-! ## Crossings -/

/-- Where a packet starts: forwarded from the LAN, or sent by the router's own resolver. -/
inductive Origin | lan | dns
deriving DecidableEq

/-- What the kernel decides outside of the table: the device by its routes, and the destination and
the source by the connection and by the translations of other tables. -/
structure Outside where
  device : String
  daddr : Ipv4Addr
  source : Ipv4Addr

/-- A packet of connection `conn` on its way through a loaded table. -/
structure Crossing (ι : Type) where
  conn : ι
  installed : LoadedTable
  origin : Origin
  packet : Packet
  outside : Outside

namespace Crossing

variable {ι : Type} (x : Crossing ι)

/-- The packet's way out, with what becomes of its connection. -/
def pass (c : Conn) : Conn × Option Sent :=
  let table := x.installed.table
  let chains := x.installed.chains
  let nats := hooked "nat" "postrouting" chains
  match x.origin with
  | .lan =>
    match runFilters table (hooked "filter" "prerouting" chains) (c.view x.packet) with
    | none => (c, none)
    | some p => c.leave table (hooked "filter" "forward" chains) nats x.outside.source
        { p with oifname := x.outside.device, daddr := x.outside.daddr }
  | .dns => c.leave table (hooked "filter" "output" chains) nats x.outside.source
      { c.view x.packet with oifname := x.outside.device }

/-- The target that the policy of the table decides for a packet of the LAN. -/
def target : RouteTarget :=
  decided_target x.installed.egress x.installed.lan x.installed.policy x.installed.mappings
    x.installed.exclusions x.packet.ether_saddr x.packet.daddr

/-- A packet of its origin, of a connection from `source`, to which no other table gives a WARP
identity. -/
structure Admissible (source : Ipv4Addr) : Prop where
  lan : x.origin = .lan → FromLan x.installed.lan x.packet
  dns : x.origin = .dns → Dns x.packet
  outside : x.outside.source = source ∨ SOURCE_SUBNET.contains x.outside.source = false

/-- What a departure may be. -/
structure Allowed (s : Sent) : Prop where
  contained : Contained x.installed.egress s
  target : x.origin = .lan → s.mark &&& GOFRO_MARK_MASK = target_mark x.target
  dns : x.origin = .dns → s.mark = x.packet.mark ∧
    (s.mark &&& GOFRO_MARK_MASK = VPN_MARK → s.device = "gt0")

theorem pass_passes (c : Conn) : c.Passes (x.pass c) := by
  rw [pass]
  cases x.origin with
  | lan =>
    simp only
    cases runFilters x.installed.table _ (c.view x.packet) with
    | none => exact .refl c
    | some p => exact c.leave_passes _ _ _ _ _
  | dns => exact c.leave_passes _ _ _ _ _

variable {x}

/-- **One packet of the LAN.** -/
theorem lan_allowed {c : Conn} (ho : x.origin = .lan) (hx : x.Admissible c.source) :
    ∀ s ∈ (x.pass c).2, x.Allowed s := by
  intro s hs
  have hlan := hx.lan ho
  have hview : FromLan x.installed.lan (c.view x.packet) :=
    ⟨hlan.1, hlan.2, hlan.3, hlan.4, hlan.5⟩
  simp only [pass, ho] at hs
  rw [x.installed.prerouting] at hs
  cases hp : runFilters x.installed.table ["gofro_mark"] (c.view x.packet) with
  | none =>
    rw [hp] at hs
    cases hs
  | some p =>
    rw [hp] at hs
    obtain ⟨hpe, -⟩ := Nft.runFilters_single hp
    have hmarked := Rendered.marked x.installed.compiled x.installed.lan_valid x.installed.pooled
      x.installed.rendered hview
    have hpm : p.mark &&& GOFRO_MARK_MASK = target_mark x.target := by
      rw [hpe]
      exact hmarked.mark
    obtain ⟨m, ct, seg, hkept⟩ := Nft.runChain_kept x.installed.table "gofro_mark" (c.view x.packet)
    rw [← hpe] at hkept
    set q : Packet := { p with oifname := x.outside.device, daddr := x.outside.daddr } with hq
    have hqd : q.iifname = x.installed.lan.device := by rw [hq, hkept]; exact hlan.iifname
    have hqo : q.ct_direction = .original := by rw [hq, hkept]; exact hlan.ct_direction
    have hqc : q.ct_confirmed = c.binding.isSome := by rw [hq, hkept]; rfl
    have hqr : q.ct_reply_daddr = c.replies := by rw [hq, hkept]; rfl
    have htarget : q.mark &&& GOFRO_MARK_MASK = target_mark x.target := hpm
    have hactive : Warp q.mark → ∃ a, x.installed.egress.active_source = some a := fun hw =>
      active_source_of_decided (target_mark_warp (htarget.symm.trans hw))
    obtain ⟨-, hmark, -, hcontained⟩ := LoadedTable.leave_contained (.inl hqd) hqc hqr
      (fun q' => LoadedTable.forward_gated hqd hqo hactive) hx.outside s hs
    exact ⟨hcontained, fun _ => hmark ▸ htarget, by simp [ho]⟩

/-- **One DNS packet of the router.** -/
theorem dns_allowed {c : Conn} (ho : x.origin = .dns) (hx : x.Admissible c.source) :
    ∀ s ∈ (x.pass c).2, x.Allowed s := by
  intro s hs
  have hdns := hx.dns ho
  simp only [pass, ho] at hs
  set q : Packet := { c.view x.packet with oifname := x.outside.device } with hq
  have hqd : Dns q := ⟨hdns.nfproto, hdns.l4proto, hdns.dport⟩
  obtain ⟨⟨p, hp⟩, hmark, hdev, hcontained⟩ := LoadedTable.leave_contained (.inr hqd) rfl rfl
    (fun q' h => ⟨(LoadedTable.output_gated hqd h).1, (LoadedTable.output_gated hqd h).2.1⟩)
    hx.outside s hs
  refine ⟨hcontained, by simp [ho], fun _ => ⟨hmark, fun hv => ?_⟩⟩
  exact hdev.trans ((LoadedTable.output_gated hqd hp).2.2 (hmark ▸ hv))

theorem pass_allowed {c : Conn} (hx : x.Admissible c.source) : ∀ s ∈ (x.pass c).2, x.Allowed s := by
  cases ho : x.origin with
  | lan => exact lan_allowed ho hx
  | dns => exact dns_allowed ho hx

end Crossing

/-! ## Runs -/

/-- **WARP traffic is contained**, over every run of the router's DNS packets and of IPv4 packets
that devices send in the direction of their connection, not for the router itself, through any tables:
each departure is allowed by the table it went through, and a connection that has sent a WARP packet
sends no other, whatever the policies decide later. -/
theorem warp_contained {ι : Type} [DecidableEq ι] (source : ι → Ipv4Addr)
    (run : List (Crossing ι)) (h : ∀ x ∈ run, x.Admissible (source x.conn)) :
    let sent := Nft.departures Crossing.conn Crossing.pass (fun i => ⟨source i, none⟩) run
    (∀ d ∈ sent, d.1.Allowed d.2) ∧
      ∀ d ∈ sent, ∀ d' ∈ sent, d.1.conn = d'.1.conn →
        d.2.source = d'.2.source ∧ (Warp d.2.mark ↔ Warp d'.2.mark) := by
  intro sent
  have hallowed : ∀ d ∈ sent, d.1.Allowed d.2 := by
    have hstep : ∀ (x : Crossing ι) c, x.Admissible (source x.conn) → c.source = source x.conn →
        (x.pass c).1.source = source x.conn ∧ ∀ s ∈ (x.pass c).2, x.Allowed s := fun x c hx hc =>
      ⟨(x.pass_passes c).source.trans hc, Crossing.pass_allowed (hc ▸ hx)⟩
    exact @Nft.departures_rule _ _ _ _ _ (fun i c => c.source = source i) _ _ hstep _ (fun _ => rfl) _ h
  have hwarp : ∀ d ∈ sent, (Warp d.2.mark ↔ SOURCE_SUBNET.contains d.2.source = true) := by
    intro d hd
    have hc := (hallowed d hd).contained
    refine ⟨fun hw => ?_, hc.identity⟩
    refine @from_config_contains d.1.installed.config _ ?_
    exact (Option.filter_eq_some_iff.mp (hc.warp hw).2).1
  refine ⟨hallowed, fun d hd d' hd' hi => ?_⟩
  have hs := Nft.departures_source (fun x c => Crossing.pass_passes x c) hd hd' hi
  exact ⟨hs, by rw [hwarp d hd, hwarp d' hd', hs]⟩

end

/-! ### A WARP connection that outlives its policy -/

def sampleWarpServer : ServerProfile :=
  ⟨"vps", "", "203.0.113.1:51820", "key", some "10.202.0.5/32", none, some ⟨"203.0.113.1", 22, ""⟩⟩

def sampleWarpConfig (vpn_enabled : Bool) : ControllerConfig :=
  ⟨false, [], vpn_enabled, some "key", [sampleWarpServer], sampleRouting⟩

def sampleInstalled (vpn_enabled : Bool) :
    letI := sampleRegex
    letI := sampleIdna
    LoadedTable :=
  letI := sampleRegex
  letI := sampleIdna
  .load sampleLan 5353 (sampleWarpConfig vpn_enabled) samplePolicy sampleMappings ⟨80, 443⟩ []
    (by decide +kernel) samplePolicy_compiled ⟨by decide, by decide⟩

/-- A packet of a device to `1.1.1.1`. -/
def sampleWarpPacket : Packet where
  iifname := "br-lan"
  oifname := ""
  nfproto := .ipv4
  ether_saddr := 1
  daddr := Ipv4.addr 1 1 1 1
  daddr_local := false
  l4proto := .tcp
  dport := 443
  tcp_syn := false
  maxseg := none
  ct_direction := .original
  ct_confirmed := false
  ct_reply_daddr := 0
  mark := 0
  ct_mark := 0

/-- The connection goes through WARP until the VPN is turned off. -/
def sampleCrossings :
    letI := sampleRegex
    letI := sampleIdna
    List (Crossing Unit) :=
  letI := sampleRegex
  letI := sampleIdna
  [(true, "gt0"), (true, "wan"), (true, "gt0"), (false, "wan")].map fun (on, device) =>
    ⟨(), sampleInstalled on, .lan, sampleWarpPacket,
      ⟨device, Ipv4.addr 1 1 1 1, Ipv4.addr 192 168 1 10⟩⟩

/-- `warp_contained` for this connection. -/
theorem warp_contained_sample :
    letI := sampleRegex
    letI := sampleIdna
    let sent := Nft.departures Crossing.conn Crossing.pass
      (fun _ => ⟨Ipv4.addr 192 168 1 10, none⟩) sampleCrossings
    (∀ d ∈ sent, d.1.Allowed d.2) ∧
      ∀ d ∈ sent, ∀ d' ∈ sent, d.1.conn = d'.1.conn →
        d.2.source = d'.2.source ∧ (Warp d.2.mark ↔ Warp d'.2.mark) :=
  letI := sampleRegex
  letI := sampleIdna
  warp_contained (fun _ => Ipv4.addr 192 168 1 10) sampleCrossings fun x hx => by
    obtain ⟨⟨on, device⟩, -, rfl⟩ := List.mem_map.mp hx
    have hpanel : sampleWarpPacket.daddr ≠ PANEL_VIRTUAL_IP := by decide
    exact ⟨fun _ => ⟨rfl, rfl, rfl, hpanel, rfl⟩, by simp, .inl rfl⟩

/-! ## IPv6 -/

section

variable [RegexEngine] [Idna] {r : LoadedTable} {p : Packet}

omit [Idna] in
theorem uses_warp_of_target {policy : RoutingPolicy} {domain : String} {ip : Ipv4Addr}
    (h : policy.target domain ip = .warp) : policy.uses_warp = true := by
  rw [RoutingPolicy.target] at h
  split_ifs at h with hl hall
  have hmode : policy.config.mode = .rules := by
    cases hm : policy.config.mode with
    | all => exact absurd hm hall
    | rules => rfl
  rw [RoutingPolicy.uses_warp, hmode]
  cases hf : policy.rule_refs.findSome? (policy.rule_target domain ip) with
  | none =>
    rw [hf, Option.getD_none, RoutingPolicy.effective_fallback, if_neg hall] at h
    simp [h]
  | some target =>
    rw [hf, Option.getD_some] at h
    subst h
    obtain ⟨ref, -, href⟩ := List.exists_of_findSome?_eq_some hf
    cases ref with
    | domain index =>
      rw [RoutingPolicy.rule_target, RoutingPolicy.domain_hit, Option.map_eq_some_iff] at href
      obtain ⟨rule, hr, ht⟩ := href
      obtain ⟨hget, hmatch⟩ := Option.filter_eq_some_iff.mp hr
      have hany : policy.config.domain_rules.any
          (fun rule => rule.enabled && rule.target = .warp) = true := by
        rw [List.any_eq_true]
        exact ⟨rule, List.mem_of_getElem? hget, by simp_all⟩
      simp [hany]
    | ip index =>
      rw [RoutingPolicy.rule_target, RoutingPolicy.ip_hit, Option.map_eq_some_iff] at href
      obtain ⟨rule, hr, ht⟩ := href
      obtain ⟨hget, hmatch⟩ := Option.filter_eq_some_iff.mp hr
      have hany : policy.config.ip_rules.any
          (fun rule => rule.enabled && rule.target = .warp) = true := by
        rw [List.any_eq_true]
        exact ⟨rule, List.mem_of_getElem? hget, by simp_all⟩
      simp [hany]

theorem LoadedTable.ipv6_stopped (hd : p.iifname = r.lan.device) (hp : p.nfproto = .ipv6)
    (hx : p.ether_saddr ∉ r.exclusions.map MacAddress.bits)
    (hon : (r.egress.enabled || r.policy.uses_warp) = true) :
    runFilters r.table (hooked "filter" "forward" r.chains) p = none := by
  by_contra hne
  obtain ⟨q, hq⟩ := Option.ne_none_iff_exists'.mp hne
  have hmem : "gofro_ipv6" ∈ hooked "filter" "forward" r.chains := by
    rw [r.forward, if_pos hon]
    simp
  obtain ⟨-, hguard⟩ := Nft.runFilters_fence r.forward_fence hq
  obtain ⟨m, hm, hfalse⟩ := hguard "gofro_ipv6" hmem
    [.iifname .eq r.lan.device, .ether_saddr .ne "device_exclusions", .nfproto .ipv6] .reject
    (by rw [r.rules_of_mem (r.mem_ipv6 hon)]; exact List.mem_cons_self)
    (by simp [Match.plain])
  have hex : Match.holds r.table p (.ether_saddr .ne "device_exclusions") =
      !Match.holds r.table p (.ether_saddr .eq "device_exclusions") := rfl
  rw [holds_exclusions r.rendered, decide_eq_false hx] at hex
  simp only [List.mem_cons, List.not_mem_nil, or_false] at hm
  rcases hm with rfl | rfl | rfl
  · simp [Match.holds, Nft.Op.test, hd] at hfalse
  · rw [hex] at hfalse
    cases hfalse
  · simp [Match.holds, hp] at hfalse

/-- **No IPv6 around the tunnel**: while the VPN is on, or the policy sends some name or address
through WARP, an IPv6 packet of the LAN is forwarded only for an excluded device. -/
theorem ipv6_contained {ι : Type} {x : Crossing ι} (ho : x.origin = .lan)
    (hd : x.packet.iifname = x.installed.lan.device) (hp : x.packet.nfproto = .ipv6)
    (hx : x.packet.ether_saddr ∉ x.installed.exclusions.map MacAddress.bits)
    (hu : x.installed.config.vpn_enabled = true ∨
      ∃ domain ip, x.installed.policy.target domain ip = .warp) (c : Conn) :
    x.pass c = (c, none) := by
  have hon : (x.installed.egress.enabled || x.installed.policy.uses_warp) = true := by
    rcases hu with hu | ⟨domain, ip, hu⟩
    · have he : x.installed.egress.enabled = true := hu
      rw [he, Bool.true_or]
    · rw [uses_warp_of_target hu, Bool.or_true]
  simp only [Crossing.pass, ho]
  rw [x.installed.prerouting]
  cases hm : runFilters x.installed.table ["gofro_mark"] (c.view x.packet) with
  | none => rfl
  | some p =>
    obtain ⟨hpe, -⟩ := Nft.runFilters_single hm
    obtain ⟨m, ct, seg, hkept⟩ := Nft.runChain_kept x.installed.table "gofro_mark" (c.view x.packet)
    rw [← hpe] at hkept
    have hstop := LoadedTable.ipv6_stopped (r := x.installed)
      (p := { p with oifname := x.outside.device, daddr := x.outside.daddr })
      (by rw [hkept]; exact hd) (by rw [hkept]; exact hp) (by rw [hkept]; exact hx) hon
    show Conn.leave _ _ _ _ c _ = (c, none)
    rw [Conn.leave, hstop]

end

/-- `ipv6_contained` for a packet under this policy, with the VPN off. -/
theorem ipv6_contained_sample :
    letI := sampleRegex
    letI := sampleIdna
    let x : Crossing Unit := ⟨(), sampleInstalled false, .lan, { sampleWarpPacket with
      nfproto := .ipv6 }, ⟨"wan", 0, Ipv4.addr 192 168 1 10⟩⟩
    x.pass ⟨Ipv4.addr 192 168 1 10, none⟩ = (⟨Ipv4.addr 192 168 1 10, none⟩, none) :=
  letI := sampleRegex
  letI := sampleIdna
  ipv6_contained rfl rfl rfl (by decide)
    (.inr ⟨"", Ipv4.addr 1 1 1 1, by decide +kernel⟩) ⟨Ipv4.addr 192 168 1 10, none⟩

end Gofro.Agent

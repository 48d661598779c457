import GofroRouter.Agent.FakeDns.Resolver

/-!
# Routing by name

From the answer of a DNS server to the mark of a connection: the client connects to the address it
was given, and the chain marks the packet as the policy decides for the queried name.

* `decided_target_answered`: the decision about a returned address.
* **`routing_enforced`**: the mark of a connection to a returned address.
* `authority_unrouted`: addresses that are not covered.
-/

namespace Gofro.Agent

open Geodata (RegexEngine)
open RoutingPolicy (Compiled)

/-- Where the policy sends a domain's traffic to an address. -/
def routed_target [RegexEngine] (egress : VpnEgress) (lan : LanContext) (policy : RoutingPolicy)
    (domain : String) (real : Ipv4Addr) : RouteTarget :=
  if is_lan_destination real || lan.subnet.contains real then .direct
  else egress.target (policy.target domain real)

/-- A CNAME record leads from one name to the other. -/
def Aliased [Idna] (records : List Record) (a b : String) : Prop :=
  ∃ record ∈ records, cname_edge record = some (a, b)

/-- **The relevant names** are those that CNAME records lead to. -/
theorem mem_relevant_names [Idna] {records : List Record} {domain name : String} :
    name ∈ relevant_names records domain ↔
      Relation.ReflTransGen (Aliased records) domain name := by
  have hedge : Closure.Edge (records.filterMap cname_edge) = Aliased records := by
    funext a b
    simp [Closure.Edge, Aliased]
  rw [relevant_names, Closure.mem_saturate (List.length_filterMap_le _ _), hedge]
  simp

theorem is_lan_destination_target {egress : VpnEgress} {policy : RoutingPolicy} {ip : Ipv4Addr}
    (h : is_lan_destination ip = true) : egress.target (policy.ip_target ip).1 = .direct := by
  rw [RoutingPolicy.ip_target, if_pos h]
  simp [VpnEgress.target, effective_target]

theorem on_link_iff {lan : LanContext} (hlan : validate_lan lan = .ok ()) {real : Ipv4Addr} :
    on_link lan real = (is_lan_destination real || lan.subnet.contains real) := by
  have hself : lan.subnet.contains lan.address = true := by
    simp only [validate_lan, bind_eq_ok, bail_if_eq_ok] at hlan
    obtain ⟨-, -, -, hc, -⟩ := hlan
    simp only [Bool.or_eq_false_iff, Bool.not_eq_false'] at hc
    exact hc.1.1.1.2
  rw [on_link]
  by_cases hr : real = lan.address
  · rw [hr, hself]
    simp
  · simp [hr]

section

variable {egress : VpnEgress} {lan : LanContext} {policy : RoutingPolicy} {s : Store}
  {exclusions : List MacAddress} {device : Nft.Ether} {domain : String} {real : Ipv4Addr}

theorem decided_target_real (hs : s.Inv) (hx : device ∉ exclusions.map MacAddress.bits)
    (hr : FAKE_DNS.contains real = false) :
    decided_target egress lan policy s.mappings exclusions device real =
      if is_lan_destination real || lan.subnet.contains real then .direct
      else egress.target (policy.ip_target real).1 := by
  have hno : s.mappings.find? (fun m => m.fake = real) = none := by
    refine List.find?_eq_none.mpr fun m hm he => ?_
    have hpool := FAKE_DNS_contains (hs.pooled.range m hm)
    rw [decide_eq_true_eq] at he
    rw [he, hr] at hpool
    cases hpool
  rw [decided_target, if_neg hx, hno]
  cases hsub : lan.subnet.contains real with
  | true => simp
  | false =>
    cases hlan : is_lan_destination real with
    | true => simpa using is_lan_destination_target hlan
    | false => simp

theorem decided_target_fake [RegexEngine] (hs : s.Inv) (hf : s.Follows policy)
    (hx : device ∉ exclusions.map MacAddress.bits) {l : Lease} (hl : l ∈ s.leases) :
    decided_target egress lan policy s.mappings exclusions device l.mapping.fake =
      egress.target (policy.target l.domain l.mapping.real) := by
  have hfind : s.mappings.find? (fun m => m.fake = l.mapping.fake) = some l.mapping := by
    cases hm : s.mappings.find? (fun m => m.fake = l.mapping.fake) with
    | none =>
      have hno := List.find?_eq_none.mp hm _ (List.mem_map_of_mem hl)
      simp at hno
    | some m =>
      have he : m.fake = l.mapping.fake := by simpa using List.find?_some hm
      rw [eq_of_fake_eq hs.nodup (List.mem_of_find?_eq_some hm) (List.mem_map_of_mem hl) he]
  rw [decided_target, if_neg hx, hfind]
  simp only [hf l hl]

/-- **The decision about a returned address** is the policy's for the queried name. -/
theorem decided_target_answered [RegexEngine] [Idna] (hlan : validate_lan lan = .ok ()) (hs : s.Inv)
    (hf : s.Follows policy) {names : Finset String} {record record' : Record}
    (ha : FakeDns.Answered policy domain names lan s record record')
    (hd : record.data = .a real) (hn : query_domain record.name ∈ names)
    (hr : FAKE_DNS.contains real = false) :
    record'.name = record.name ∧ ∃ address, record'.data = .a address ∧
      ∀ (egress : VpnEgress) (exclusions : List MacAddress) (device : Nft.Ether),
        device ∉ exclusions.map MacAddress.bits →
          decided_target egress lan policy s.mappings exclusions device address =
            routed_target egress lan policy domain real := by
  cases ha with
  | rewritten h =>
    cases h with
    | faked hd' hn' ho hl hk =>
      rw [hd, RData.a.injEq] at hd'
      subst hd'
      refine ⟨rfl, _, rfl, fun egress exclusions device hx => ?_⟩
      obtain ⟨hdom, hreal⟩ := Prod.mk.inj hk
      rw [decided_target_fake hs hf hx hl, hdom, hreal, routed_target, ← on_link_iff hlan, ho]
      rfl
    | kept h =>
      have ho := h real hd hn
      rw [on_link_iff hlan] at ho
      refine ⟨rfl, real, hd, fun egress exclusions device hx => ?_⟩
      rw [decided_target_real hs hx hr, routed_target, if_pos ho, if_pos ho]
  | passed hno =>
    refine ⟨rfl, real, hd, fun egress exclusions device hx => ?_⟩
    rw [decided_target_real hs hx hr, routed_target, policy.target_of_domain_target hno]

end

/-- A connection of a LAN device to the address of `record'` is marked as the policy routes the
domain's traffic to the address of `record`. -/
def Enforced [RegexEngine] [Idna] (egress : VpnEgress) (lan : LanContext) (policy : RoutingPolicy)
    (domain : String) (answers : List Record) (exclusions : List MacAddress) (t : Nft.Table)
    (record record' : Record) : Prop :=
  ∀ real, record.data = .a real →
    Relation.ReflTransGen (Aliased answers) domain (query_domain record.name) →
    FAKE_DNS.contains real = false →
    record'.name = record.name ∧ ∃ address, record'.data = .a address ∧
      ∀ p, FromLan lan p → p.ether_saddr ∉ exclusions.map MacAddress.bits → p.daddr = address →
        Marked (routed_target egress lan policy domain real) p (Nft.runChain t "gofro_mark" p)

/-- **Routing by name**: after every response that is returned, a connection of a LAN device to a
returned address is marked as the policy routes the queried name. -/
theorem routing_enforced [RegexEngine] [Idna] {policy : RoutingPolicy} (hc : Compiled policy)
    {egress : VpnEgress} {lan : LanContext} (hlan : validate_lan lan = .ok ()) {dns : FakeDns}
    (hs : dns.store.Inv) (hf : dns.store.Follows policy) {dns_port : ℕ} {panel_ports : PanelPorts}
    {exclusions : List MacAddress} {k : Nft.Kernel}
    (hk : Installed (policy_edits lan dns_port egress policy panel_ports) dns.store.mappings
      exclusions k) {message response : Message} {domain : String} {faults : QueryFaults}
    {dns' : FakeDns} {k' : Nft.Kernel}
    (h : dns.rewrite_response k message domain policy lan faults = (.ok response, dns', k')) :
    ∃ t, k' TABLE = some t ∧
      List.Forall₂ (Enforced egress lan policy domain message.answers exclusions t)
        (address_records message.answers) (address_records response.answers) ∧
      List.Forall₂ (Enforced egress lan policy domain message.answers exclusions t)
        (address_records message.additionals) (address_records response.additionals) := by
  obtain ⟨hs', hf', ⟨added, install, hm, hi⟩, ha, hd⟩ := FakeDns.rewrite_response_spec hs h
  obtain ⟨t, rfl, ht⟩ := install_mappings_ok hk (hm ▸ hs'.nodup) hi
  rw [← hm] at ht
  have henforced : ∀ record record',
      FakeDns.Answered policy domain (relevant_names message.answers domain) lan dns'.store
        record record' →
      Enforced egress lan policy domain message.answers exclusions t record record' := by
    intro record record' hr real hd hn hfake
    have hdecided := decided_target_answered hlan hs' (hf' hf) hr hd (mem_relevant_names.mpr hn) hfake
    obtain ⟨hname, address, haddr, htarget⟩ := hdecided
    refine ⟨hname, address, haddr, fun p hp hx hdst => ?_⟩
    have hmark := ht.marked hc hlan hs'.pooled hp
    rwa [hdst, htarget egress exclusions p.ether_saddr hx] at hmark
  exact ⟨t, Function.update_self .., ha.imp henforced, hd.imp henforced⟩

/-! ### A blocked name -/

/-- `a.example` is blocked, everything else goes through the VPN. -/
def blockRouting : RoutingConfig :=
  ⟨[⟨"a", true, .exact "a.example", .block⟩], [], .vpn, .rules, none⟩

def blockPolicy : RoutingPolicy := ⟨blockRouting, .empty, []⟩

theorem blockPolicy_compiled :
    letI := sampleRegex
    letI := sampleIdna
    Compiled blockPolicy :=
  letI := sampleRegex
  letI := sampleIdna
  ⟨.empty, ⟨fun _ => true, fun _ => true⟩, blockRouting, .empty, .empty,
    RoutingPolicy.CachesFor.empty _, ⟨blockRouting, by decide +kernel⟩, by decide +kernel⟩

def sampleDns : FakeDns := ⟨⟨.empty, [], ∅, FIRST_FAKE.toNat, 4096⟩, true⟩

def sampleFaults : QueryFaults := ⟨fun _ => ⟨true, 0⟩, fun _ => ⟨true, 0⟩, true, true⟩

/-- The first packet of a connection from the LAN. -/
def connection (dst : Ipv4Addr) (daddr_local : Bool) : Nft.Packet :=
  ⟨"br-lan", "", .ipv4, 0x020000000001, dst, daddr_local, .tcp, 443, true, none, .original, false,
    dst, 0, 0⟩

def sampleHost : Ipv4Addr := Ipv4.addr 203 0 113 5

/-- An address in the authority section only. -/
def authorityAnswer : Message := ⟨[], [⟨"a.example.", 60, .a sampleHost⟩], [], false⟩

/-- An answer that no rule is about. -/
def plainAnswer : Message := ⟨[⟨"b.example.", 60, .a sampleHost⟩], [], [], false⟩

def sampleTable : Option Nft.Table :=
  Nft.runEdits .empty (table_edits sampleLan 5353 ⟨true, none⟩ blockPolicy [] ⟨80, 443⟩ [])

theorem sampleDns_inv : sampleDns.store.Inv :=
  (@Store.load_inv .empty 4096 sampleDns.store rfl).1

/-- Addresses of the authority section are returned as they are, and a connection to one of them
does not follow the rule for the name; nor does a connection to an address of the router itself,
which stays direct. -/
theorem authority_unrouted :
    letI := sampleRegex
    letI := sampleIdna
    Compiled blockPolicy ∧ validate_lan sampleLan = .ok () ∧ sampleDns.store.Inv ∧
    (∀ k, (sampleDns.rewrite_response k authorityAnswer "a.example" blockPolicy sampleLan
        sampleFaults) = (.ok authorityAnswer, sampleDns, k) ∧
      (sampleDns.rewrite_response k plainAnswer "b.example" blockPolicy sampleLan sampleFaults) =
        (.ok plainAnswer, sampleDns, k)) ∧
    query_domain "a.example." = "a.example" ∧ query_domain "b.example." = "b.example" ∧
    FAKE_DNS.contains sampleHost = false ∧
    target_mark (routed_target ⟨true, none⟩ sampleLan blockPolicy "a.example" sampleHost) =
      BLOCK_MARK ∧
    sampleTable.map (fun t =>
      (Nft.runChain t "gofro_mark" (connection sampleHost false)).1.mark &&& GOFRO_MARK_MASK) =
        some VPN_MARK ∧
    target_mark (routed_target ⟨true, none⟩ sampleLan blockPolicy "b.example" sampleHost) =
      VPN_MARK ∧
    sampleTable.map (fun t =>
      (Nft.runChain t "gofro_mark" (connection sampleHost true)).1.mark &&& GOFRO_MARK_MASK) =
        some DIRECT_MARK := by
  let _ := sampleRegex
  let _ := sampleIdna
  refine ⟨blockPolicy_compiled, by decide +kernel, sampleDns_inv, fun k => ⟨?_, ?_⟩,
    by decide +kernel, by decide +kernel, by decide +kernel, by decide +kernel, by decide +kernel,
    by decide +kernel, by decide +kernel⟩
  · rfl
  · rfl

def sampleKernel : Nft.Kernel := fun name => if name = TABLE then sampleTable else none

def blockedAnswer : Message := ⟨[⟨"a.example.", 60, .a sampleHost⟩], [], [], false⟩

theorem sampleKernel_installed :
    Installed (policy_edits sampleLan 5353 ⟨true, none⟩ blockPolicy ⟨80, 443⟩)
      sampleDns.store.mappings [] sampleKernel := by
  have hn : ((enabled_ip_rules blockPolicy).map Prod.fst).Nodup := by decide +kernel
  have hfake : ((sampleDns.store.mappings).map FakeMapping.fake).Nodup := List.nodup_nil
  have ht : ∃ t, sampleTable = some t := exists_rendered hn hfake
  obtain ⟨t, ht⟩ := ht
  exact ⟨t, ht, (runEdits_table hfake).mp ht⟩

/-- `routing_enforced` for the blocked name, which gets the first fake address. -/
theorem routing_enforced_sample :
    letI := sampleRegex
    letI := sampleIdna
    ∃ t, List.Forall₂
      (Enforced ⟨true, none⟩ sampleLan blockPolicy "a.example" blockedAnswer.answers [] t)
      (address_records blockedAnswer.answers)
      (address_records [⟨"a.example.", 60, .a FIRST_FAKE⟩]) :=
  letI := sampleRegex
  letI := sampleIdna
  have hres : (sampleDns.rewrite_response sampleKernel blockedAnswer "a.example" blockPolicy
      sampleLan sampleFaults).1 = .ok ⟨[⟨"a.example.", 60, .a FIRST_FAKE⟩], [], [], false⟩ := by
    decide +kernel
  have h := routing_enforced blockPolicy_compiled (by decide +kernel) sampleDns_inv
    (fun _ hl => nomatch hl) sampleKernel_installed (Prod.ext hres rfl)
  ⟨h.choose, h.choose_spec.2.1⟩

end Gofro.Agent

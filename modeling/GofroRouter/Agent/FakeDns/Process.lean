import GofroRouter.Agent.FakeDns.Answers

/-!
# Queries

`process` of `resolver.rs`: a query is answered by the router itself, refused, or sent to an upstream
server, whose answer is rewritten. The DNS library and the upstream server are parameters.

* `free_fakes_add`: the fake addresses that the next leases get.
* `rewrite_records_took`: the leases of the domain after a rewriting.
* `respond_upstream`: a response that comes from an upstream server.
* **`answers_steer`**: exactly when an upstream answer brings no address of the pool.
-/

namespace Gofro.Agent

open Geodata (RegexEngine)

/-! ## Packets -/

/-- A question, with its type as a number. -/
structure Query where
  name : String
  query_type : ℕ
  query_class : ℕ
deriving DecidableEq

def TYPE_A : ℕ := 1

/-- The codes that the resolver itself uses, and the others. -/
inductive ResponseCode
  | no_error
  | form_err
  | refused
  | other (code : ℕ)
deriving DecidableEq

/-- A decoded packet: the header fields that `process` reads or sets, its questions, and its
sections. -/
structure Packet where
  id : ℕ
  response : Bool
  op_code : ℕ
  recursion_desired : Bool
  recursion_available : Bool
  response_code : ResponseCode
  /-- the EDNS options have a client subnet -/
  subnet : Bool
  queries : List Query
  message : Message
deriving DecidableEq

/-- The DNS library: packets from and to bytes, and its comparison of questions. -/
class Hickory where
  from_vec : List UInt8 → Option Packet
  to_vec : Packet → Option (List UInt8)
  same_queries : List Query → List Query → Bool

/-- The router's own answer to a request. -/
def empty_response (request : Packet) (code : ResponseCode) : Packet where
  id := request.id
  response := true
  op_code := request.op_code
  recursion_desired := request.recursion_desired
  recursion_available := true
  response_code := code
  subnet := false
  queries := request.queries
  message := ⟨[], [], [], false⟩

/-- The answer for the panel's own name. -/
def panel_response (request : Packet) : Packet :=
  let answers := match request.queries.head? with
    | some query =>
      if query.query_type = TYPE_A then [⟨query.name, 30, .a PANEL_VIRTUAL_IP⟩] else []
    | none => []
  { empty_response request .no_error with message := ⟨answers, [], [], false⟩ }

/-- Moving DNS into a tunnel is insufficient if the client embeds its original subnet. -/
def upstream_packet [Hickory] (packet : List UInt8) (request : Packet) (route : UpstreamRoute) :
    Except String (List UInt8) :=
  if route.mark = target_mark .direct || !request.subnet then .ok packet
  else match Hickory.to_vec { request with subnet := false } with
    | some packet => .ok packet
    | none => .error "DNS encoding failure"

/-- What an upstream server sends back, if anything. -/
abbrev Network := List UInt8 → UpstreamRoute → Except String (List UInt8)

/-- The answer of the upstream server, once it is known to match the request. -/
def query_upstream [Hickory] (network : Network) (packet : List UInt8) (request : Packet)
    (route : UpstreamRoute) : Except String Packet := do
  let outgoing ← upstream_packet packet request route
  let response ← network outgoing route
  match Hickory.from_vec response with
  | none => .error "invalid upstream DNS response"
  | some answer =>
    if !answer.response || answer.id ≠ request.id ||
        !Hickory.same_queries answer.queries request.queries then
      .error "upstream DNS response does not match the request"
    else .ok answer

namespace FakeDns

variable [RegexEngine] [Idna] [Hickory] (dns : FakeDns) (k : Nft.Kernel) (packet : List UInt8)
  (policy : RoutingPolicy) (upstream : SocketAddr) (lan : LanContext) (network : Network)
  (faults : QueryFaults)

/-- `process` up to the encoding of its response. -/
def respond (request : Packet) : Except String Packet × FakeDns × Nft.Kernel :=
  match request.queries with
  | [query] =>
    let domain := query_domain query.name
    if domain = AP_DOMAIN then (.ok (panel_response request), dns, k)
    else match upstream_route domain policy upstream dns.vpn_enabled lan with
      | none => (.ok (empty_response request .refused), dns, k)
      | some route =>
        match query_upstream network packet request route with
        | .error e => (.error e, dns, k)
        | .ok answer =>
          let (result, dns, k) :=
            dns.rewrite_response k answer.message domain policy lan faults
          (result.map fun message => { answer with message }, dns, k)
  | _ => (.ok (empty_response request .form_err), dns, k)

/-- One request of a client, from its bytes to the bytes of its answer. -/
def process : Except String (List UInt8) × FakeDns × Nft.Kernel :=
  match Hickory.from_vec packet with
  | none => (.error "invalid DNS request", dns, k)
  | some request =>
    match dns.respond k packet policy upstream lan network faults request with
    | (.error e, dns, k) => (.error e, dns, k)
    | (.ok response, dns, k) =>
      match Hickory.to_vec response with
      | none => (.error "failed to encode DNS response", dns, k)
      | some bytes => (.ok bytes, dns, k)

end FakeDns

/-! ## The fake addresses of new leases -/

namespace Store

/-- What the choice of a fake address depends on. -/
abbrev Cursor := Finset Ipv4Addr × ℕ

/-- What tells which fake address is next. -/
def cursor (s : Store) : Cursor := (s.used, s.next)

/-- The fake address of the next new lease, if any is left. -/
def next_fake (c : Cursor) : Option Ipv4Addr := first_free c.1 c.2 POOL_SIZE 0

/-- The cursor behind the next fake address. -/
def advance (c : Cursor) : Cursor :=
  match next_fake c with
  | none => c
  | some fake => (insert fake c.1, if fake = LAST_FAKE then FIRST_FAKE.toNat else fake.toNat + 1)

/-- The next `n` fake addresses that are free. -/
def free_fakes (c : Cursor) : ℕ → List Ipv4Addr
  | 0 => []
  | n + 1 => (next_fake c).toList ++ free_fakes (advance c) n

theorem free_fakes_add (c : Cursor) (m n : ℕ) :
    free_fakes c (m + n) = free_fakes c m ++ free_fakes (advance^[m] c) n := by
  induction m generalizing c with
  | zero => rw [Nat.zero_add]; rfl
  | succ m ih => rw [Nat.add_right_comm, free_fakes, ih, free_fakes, List.append_assoc]; rfl

/-- The real addresses of a domain that have a lease. -/
def leased (s : Store) (domain : String) : Finset Ipv4Addr :=
  ((s.leases.filter fun l => l.domain = domain).map fun l => l.mapping.real).toFinset

/-- A live lease of the domain has this fake address. -/
def HasFake (s : Store) (domain : String) (a : Ipv4Addr) : Prop :=
  ∃ l ∈ s.leases, l.domain = domain ∧ l.mapping.fake = a

theorem mem_leased {s : Store} {domain : String} {real : Ipv4Addr} :
    real ∈ s.leased domain ↔ ∃ l ∈ s.leases, l.key = (domain, real) := by
  simp only [leased, List.mem_toFinset, List.mem_map, List.mem_filter, decide_eq_true_eq]
  constructor
  · rintro ⟨l, ⟨hl, rfl⟩, rfl⟩
    exact ⟨l, hl, rfl⟩
  · rintro ⟨l, hl, hk⟩
    obtain ⟨rfl, rfl⟩ := Prod.mk.inj hk
    exact ⟨l, ⟨hl, rfl⟩, rfl⟩

/-- Leases were allocated for the addresses `reals` of a domain. -/
structure Took (s : Store) (domain : String) (reals : Finset Ipv4Addr) (s' : Store) : Prop where
  leased : s'.leased domain = s.leased domain ∪ reals
  cursor : s'.cursor = advance^[(reals \ s.leased domain).card] s.cursor
  fakes : ∀ a, s'.HasFake domain a ↔ s.HasFake domain a ∨
    a ∈ free_fakes s.cursor (reals \ s.leased domain).card

theorem Took.refl (domain : String) (s : Store) : s.Took domain ∅ s :=
  ⟨(Finset.union_empty _).symm, by simp, by simp [free_fakes]⟩

theorem Took.trans {domain : String} {reals reals' : Finset Ipv4Addr} {s s' s'' : Store}
    (h : s.Took domain reals s')
    (h' : s'.Took domain reals' s'') :
    s.Took domain (reals ∪ reals') s'' := by
  have hcard : ((reals ∪ reals') \ s.leased domain).card =
      (reals \ s.leased domain).card + ( reals' \ s'.leased domain).card := by
    rw [h.leased, ← Finset.card_union_of_disjoint]
    · congr 1
      ext a
      simp only [Finset.mem_sdiff, Finset.mem_union]
      tauto
    · rw [Finset.disjoint_left]
      intro a ha ha'
      simp only [Finset.mem_sdiff, Finset.mem_union, not_or] at ha ha'
      exact ha'.2.2 ha.1
  refine ⟨?_, ?_, fun a => ?_⟩
  · rw [h'.leased, h.leased, Finset.union_assoc]
  · rw [h'.cursor, h.cursor, hcard, Nat.add_comm, Function.iterate_add_apply]
  · rw [h'.fakes, h.fakes, hcard, free_fakes_add, List.mem_append, h.cursor, or_assoc]

section

variable {s s' : Store} {sql : Bool} {clock : ℤ} {domain : String} {real : Ipv4Addr}
  {target : RouteTarget} {ttl : ℕ} {m : FakeMapping} {new : Bool}

theorem renew_cursor (s : Store) (sql : Bool) (lease : Lease) (expires : ℤ) :
    (s.renew sql lease expires).2.cursor = s.cursor := by
  unfold renew
  split_ifs <;> rfl

theorem insert_new_cursor {expires : ℤ}
    (he : s.insert_new sql domain real target expires = (.ok (m, new), s')) :
    next_fake s.cursor = some m.fake ∧ s'.cursor = advance s.cursor := by
  unfold insert_new at he
  split at he
  · cases he
  · split at he
    · cases he
    · rename_i fake hfree
      simp only at he
      split at he
      · cases he
      · cases he
        have hnext : next_fake s.cursor = some fake := hfree
        refine ⟨hnext, ?_⟩
        rw [advance, hnext]
        rfl

/-- **An allocation that succeeds** takes at most one fake address, the next free one. -/
theorem allocate_took (h : s.Inv)
    (he : s.allocate sql clock domain real target ttl = (.ok (m, new), s')) :
    s.Took domain {real} s' := by
  have hspec := (allocate_spec h sql clock domain real target ttl).2
  rw [he] at hspec
  unfold allocate at he
  split at he
  · cases he
  · rename_i now hnow
    cases hspec with
    | @renewed l _ hl hk hs =>
      have hin : real ∈ s.leased domain := mem_leased.mpr ⟨l, hl, hk⟩
      have hnone : {real} \ s.leased domain = ∅ := by simpa using hin
      have hcursor : s'.cursor = s.cursor := by
        rw [(find?_key h).mpr ⟨hl, hk⟩] at he
        dsimp only at he
        rw [← renew_cursor s sql l (lease_expiry now ttl), he]
      have hdomain : ∀ l' : Lease, (extend (domain, real) (lease_expiry clock ttl) l').domain =
          l'.domain := fun l' => congrArg Prod.fst (extend_key _ _ l')
      have hs : s'.leases = s.leases.map (extend (domain, real) (lease_expiry clock ttl)) := hs
      refine ⟨?_, by rw [hnone, hcursor]; rfl, fun a => ?_⟩
      · rw [Finset.union_eq_left.mpr (Finset.singleton_subset_iff.mpr hin)]
        ext r
        rw [mem_leased, mem_leased, hs]
        simp
      · rw [hnone]
        simp [HasFake, hs, hdomain, free_fakes]
    | @admitted fake _ hfree hnew hs =>
      have hnin : real ∉ s.leased domain := fun hin => by
        obtain ⟨l, hl, hk⟩ := mem_leased.mp hin
        exact hnew l hl hk
      have hone : ({real} \ s.leased domain).card = 1 := by
        rw [Finset.sdiff_eq_self_of_disjoint (by simpa using hnin), Finset.card_singleton]
      rw [List.find?_eq_none.mpr fun l hl => by simpa using hnew l hl] at he
      obtain ⟨hnext, hcursor⟩ := insert_new_cursor he
      have hs : s'.leases =
          s.leases ++ [⟨domain, ⟨fake, real, target⟩, lease_expiry clock ttl⟩] := hs
      refine ⟨?_, by rw [hone, hcursor]; rfl, fun a => ?_⟩
      · ext r
        rw [Finset.mem_union, mem_leased, mem_leased, hs, Finset.mem_singleton]
        simp [Lease.key, eq_comm]
      · rw [hone]
        simp [HasFake, hs, free_fakes, hnext, or_and_right, exists_or, eq_comm]

end

end Store

/-! ## The leases of a rewritten answer -/

/-- The addresses of a section for which the loop asks for a lease. -/
def rewritten_reals [Idna] (names : Finset String) (lan : LanContext) (records : List Record) :
    Finset Ipv4Addr :=
  (records.filterMap fun record => match record.data with
    | .a real =>
      if query_domain record.name ∈ names ∧ on_link lan real = false then some real else none
    | _ => none).toFinset

section

variable [RegexEngine] [Idna] {domain : String} {policy : RoutingPolicy} {names : Finset String}
  {lan : LanContext} {mappings : List FakeMapping}

omit [RegexEngine] in
theorem rewritten_reals_cons (record : Record) (records : List Record) :
    rewritten_reals names lan (record :: records) =
      rewritten_reals names lan [record] ∪ rewritten_reals names lan records := by
  unfold rewritten_reals
  rw [← List.toFinset_append, ← List.filterMap_append]
  rfl

theorem rewrite_record_took {st st' : Rewriting} (h : st.store.Inv) {call : SqlCall}
    {record record' : Record} {rewritten : Bool}
    (he : rewrite_record domain policy names lan call record st = (.ok (record', rewritten), st')) :
    st.store.Took domain (rewritten_reals names lan [record]) st'.store := by
  unfold rewrite_record at he
  split at he
  · rename_i real hd
    split at he
    · rename_i hc
      have hreals : rewritten_reals names lan [record] = {real} := by
        simp [rewritten_reals, hd, hc]
      simp only at he
      split at he
      · cases he
      · rename_i m new s ha
        cases he
        rw [hreals]
        exact Store.allocate_took h ha
    · rename_i hc
      have hreals : rewritten_reals names lan [record] = ∅ := by
        simp only [rewritten_reals, List.filterMap_cons, hd, if_neg hc]
        rfl
      cases he
      rw [hreals]
      exact .refl domain _
  · rename_i hno
    have hreals : rewritten_reals names lan [record] = ∅ := by
      cases hd : record.data <;> simp_all [rewritten_reals]
    cases he
    rw [hreals]
    exact .refl domain _

/-- **The loop** takes one fake address for each new address of the section. -/
theorem rewrite_records_took {st st' : Rewriting} (h : st.Inv mappings) {calls : ℕ → SqlCall}
    {records records' : List Record} {rewritten : Bool}
    (he : rewrite_records domain policy names lan calls records st =
      (.ok (records', rewritten), st')) :
    st.store.Took domain (rewritten_reals names lan records) st'.store := by
  induction records generalizing calls st records' rewritten with
  | nil =>
    rw [rewrite_records] at he
    cases he
    exact .refl domain _
  | cons record records ih =>
    rw [rewrite_records] at he
    split at he
    · cases he
    · rename_i record' first st₁ h₁
      split at he
      · cases he
      · rename_i records'' more st₂ h₂
        cases he
        rw [rewritten_reals_cons]
        exact (rewrite_record_took h.store h₁).trans
          (ih (rewrite_record_spec h _ _ h₁).1 h₂)

end

/-- The addresses of a message for which leases are allocated. -/
def message_reals [RegexEngine] [Idna] (policy : RoutingPolicy) (domain : String) (lan : LanContext)
    (message : Message) : Finset Ipv4Addr :=
  let names := relevant_names message.answers domain
  if (policy.domain_target domain).isSome then
    rewritten_reals names lan message.answers ∪ rewritten_reals names lan message.additionals
  else ∅

/-- The fake addresses that the message's new addresses are going to get. -/
def new_fakes [RegexEngine] [Idna] (s : Store) (policy : RoutingPolicy) (domain : String)
    (lan : LanContext) (message : Message) : List Ipv4Addr :=
  Store.free_fakes s.cursor (message_reals policy domain lan message \ s.leased domain).card

namespace FakeDns

section

variable [RegexEngine] [Idna] {dns dns' : FakeDns} {k k' : Nft.Kernel} {message response : Message}
  {domain : String} {policy : RoutingPolicy} {lan : LanContext} {faults : QueryFaults}

theorem rewrite_response_took (hs : dns.store.Inv)
    (h : dns.rewrite_response k message domain policy lan faults = (.ok response, dns', k')) :
    dns.store.Took domain (message_reals policy domain lan message) dns'.store := by
  simp only [rewrite_response, Option.isSome_map] at h
  unfold message_reals
  split at h
  · rename_i ht
    rw [if_pos ht]
    rcases hr : dns.rewrite_records k message domain policy lan faults with ⟨res, dns₁, k₁⟩
    rw [hr] at h
    simp only [Prod.mk.injEq] at h
    obtain ⟨hres, rfl, rfl⟩ := h
    cases res with
    | error e => cases hres
    | ok m =>
      have h₀ : Rewriting.Inv dns.store.mappings ⟨dns.store, []⟩ :=
        ⟨hs, (List.append_nil _).symm⟩
      simp only [FakeDns.rewrite_records] at hr
      split at hr
      · cases hr
      · rename_i answers first st h₁
        split at hr
        · cases hr
        · rename_i additionals more st' h₂
          split at hr
          · cases hr
          · cases hr
            have hi := (Agent.rewrite_records_spec h₀ _ _ h₁).1
            exact (rewrite_records_took h₀ h₁).trans (rewrite_records_took hi h₂)
  · rename_i ht
    rw [if_neg ht]
    cases h
    exact .refl domain _

theorem placed_addresses (hs : dns.store.Inv)
    (h : dns.rewrite_response k message domain policy lan faults = (.ok response, dns', k')) :
    List.Forall₂ (Placed policy domain lan message.answers dns'.store)
        (address_records message.answers) (address_records response.answers) ∧
      List.Forall₂ (Placed policy domain lan message.answers dns'.store)
        (address_records message.additionals) (address_records response.additionals) := by
  have hkept : ∀ records : List Record,
      address_records (kept_records (dns.restricted policy domain) true records) =
        address_records records := by
    intro records
    unfold kept_records
    rw [if_pos rfl, address_records_dnssec]
    split_ifs
    · exact address_records_retain records
    · rfl
  have haddr : ∀ records records', List.Forall₂
      (Placed policy domain lan message.answers dns'.store) records records' →
      List.Forall₂ (Placed policy domain lan message.answers dns'.store)
        (address_records records) (address_records records') := by
    intro records records' hp
    refine List.rel_filter (fun record record' hp => ?_) hp
    rcases hp.data with ⟨⟨real, hd⟩, fake, hd'⟩ | rfl
    · simp [hd, hd', RData.is_a]
    · exact Iff.rfl
  obtain ⟨hchanged, hsame⟩ := placed_sections hs h
  by_cases hc : Changed dns policy domain lan message
  · obtain ⟨-, -, ha, hx⟩ := hchanged hc
    have ha := haddr _ _ ha
    have hx := haddr _ _ hx
    rw [hkept] at ha hx
    exact ⟨ha, hx⟩
  · rw [hsame hc]
    have hno : ∀ record ∈ message.answers ++ message.additionals,
        Placed policy domain lan message.answers dns'.store record record :=
      fun record hm => ⟨fun hr => absurd ⟨record, hm, .inl hr⟩ hc, fun _ => rfl⟩
    constructor <;> refine haddr _ _ (List.forall₂_same.mpr fun record hm => hno record ?_)
    · exact List.mem_append_left _ hm
    · exact List.mem_append_right _ hm

end

end FakeDns

/-! ## Addresses of the pool -/

/-- Every address of the reserved range in a response belongs to a live lease of the queried domain,
or is the panel's own. -/
def Unsteered [Idna] (s : Store) (request response : Packet) : Prop :=
  ∀ record ∈ response.message.answers ++ response.message.additionals, ∀ a,
    record.data = .a a → FAKE_DNS.contains a = true → ∃ query, request.queries = [query] ∧
      (s.HasFake (query_domain query.name) a ∨
        query_domain query.name = AP_DOMAIN ∧ a = PANEL_VIRTUAL_IP)

/-- An upstream message whose addresses in the reserved range are all to be replaced, but for those
that the domain has or gets anyway. -/
def Harmless [RegexEngine] [Idna] (s : Store) (policy : RoutingPolicy) (domain : String)
    (lan : LanContext) (message : Message) : Prop :=
  ∀ record ∈ message.answers ++ message.additionals, ∀ a, record.data = .a a →
    FAKE_DNS.contains a = true →
      Replaceable policy domain lan message.answers record ∨ s.HasFake domain a ∨
        a ∈ new_fakes s policy domain lan message

theorem mem_address_records {records : List Record} {record : Record} :
    record ∈ address_records records ↔ record ∈ records ∧ ∃ a, record.data = .a a := by
  rw [address_records, List.mem_filter, RData.is_a_iff]

namespace FakeDns

variable [RegexEngine] [Idna] [Hickory]

/-- The answer of the upstream server that a request is sent to. -/
def upstream_answer (dns : FakeDns) (packet : List UInt8) (policy : RoutingPolicy)
    (upstream : SocketAddr) (lan : LanContext) (network : Network) (request : Packet) :
    Option Packet :=
  match request.queries with
  | [query] =>
    let domain := query_domain query.name
    if domain = AP_DOMAIN then none
    else match upstream_route domain policy upstream dns.vpn_enabled lan with
      | none => none
      | some route => (query_upstream network packet request route).toOption
  | _ => none

variable {dns dns' : FakeDns} {k k' : Nft.Kernel} {packet : List UInt8} {policy : RoutingPolicy}
  {upstream : SocketAddr} {lan : LanContext} {network : Network} {faults : QueryFaults}
  {request response : Packet}

/-- **A response** is the router's own, or an upstream answer that was rewritten. -/
theorem respond_cases
    (h : dns.respond k packet policy upstream lan network faults request =
      (.ok response, dns', k')) :
    (dns.upstream_answer packet policy upstream lan network request = none ∧
      ∀ record ∈ response.message.answers ++ response.message.additionals,
        ∃ query, request.queries = [query] ∧ query_domain query.name = AP_DOMAIN ∧
          record.data = .a PANEL_VIRTUAL_IP) ∨
    ∃ query answer, request.queries = [query] ∧ query_domain query.name ≠ AP_DOMAIN ∧
      dns.upstream_answer packet policy upstream lan network request = some answer ∧
      dns.rewrite_response k answer.message (query_domain query.name) policy lan faults =
        (.ok response.message, dns', k') := by
  unfold respond at h
  unfold upstream_answer
  split at h
  · rename_i query hq
    simp only [hq]
    simp only at h
    split at h
    · rename_i hd
      cases h
      rw [if_pos hd]
      refine .inl ⟨rfl, fun record hm => ⟨query, rfl, hd, ?_⟩⟩
      simp only [panel_response, hq, List.head?_cons, List.append_nil] at hm
      split at hm
      · rw [List.mem_singleton.mp hm]
      · cases hm
    · rename_i hd
      rw [if_neg hd]
      split at h
      · rename_i hr
        cases h
        exact .inl ⟨rfl, fun record hm => by simp [empty_response] at hm⟩
      · rename_i route hr
        split at h
        · cases h
        · rename_i answer ha
          refine .inr ⟨query, answer, rfl, hd, by rw [ha]; rfl, ?_⟩
          rcases hrw : dns.rewrite_response k answer.message (query_domain query.name) policy lan
            faults with ⟨res, dns₁, k₁⟩
          rw [hrw] at h
          cases res with
          | error e => cases h
          | ok message => cases h; rfl
  · rename_i hno
    cases h
    exact .inl ⟨rfl, fun record hm => by simp [empty_response] at hm⟩

/-- **An upstream answer brings no address of the pool**, except that of a live lease of the queried
name, exactly when its addresses in the reserved range are all to be replaced, or belong to the name
anyway. -/
theorem answers_steer (hs : dns.store.Inv) {bytes : List UInt8}
    (h : dns.process k packet policy upstream lan network faults = (.ok bytes, dns', k')) :
    ∃ request response, Hickory.from_vec packet = some request ∧
      Hickory.to_vec response = some bytes ∧
      dns.respond k packet policy upstream lan network faults request =
        (.ok response, dns', k') ∧
      (Unsteered dns'.store request response ↔
        ∀ query answer, request.queries = [query] →
          dns.upstream_answer packet policy upstream lan network request = some answer →
          Harmless dns.store policy (query_domain query.name) lan answer.message) := by
  unfold process at h
  split at h
  · cases h
  · rename_i request hreq
    split at h
    · cases h
    · rename_i response dns₁ k₁ hres
      split at h
      · cases h
      · rename_i bytes' henc
        cases h
        refine ⟨request, response, hreq, henc, hres, ?_⟩
        rcases respond_cases hres with ⟨hnone, hown⟩ | ⟨query, answer, hq, hd, ha, hrw⟩
        · refine iff_of_true (fun record hm a hdata _ => ?_) fun query answer _ ha => ?_
          · obtain ⟨query, hq, hd, hvip⟩ := hown record hm
            rw [hvip, RData.a.injEq] at hdata
            exact ⟨query, hq, .inr ⟨hd, hdata.symm⟩⟩
          · rw [hnone] at ha
            cases ha
        · have htook := (rewrite_response_took hs hrw).fakes
          obtain ⟨hans, hadd⟩ := placed_addresses hs hrw
          have hpairs : List.Forall₂ (Placed policy (query_domain query.name) lan
              answer.message.answers dns'.store)
              (address_records answer.message.answers ++
                address_records answer.message.additionals)
              (address_records response.message.answers ++
                address_records response.message.additionals) := List.rel_append hans hadd
          have hmem : ∀ (m : Message) (record : Record),
              record ∈ address_records m.answers ++ address_records m.additionals ↔
                record ∈ m.answers ++ m.additionals ∧ ∃ a, record.data = .a a := by
            intro m record
            simp only [List.mem_append, mem_address_records, or_and_right]
          constructor
          · intro hun query' answer' hq' ha' record hm a hdata hfake
            obtain rfl : query = query' := by simpa using hq.symm.trans hq'
            obtain rfl : answer = answer' := Option.some.inj (ha.symm.trans ha')
            by_cases hrep : Replaceable policy (query_domain query.name) lan
              answer.message.answers record
            · exact .inl hrep
            · -- the record is returned as it is
              obtain ⟨record', hm', hp⟩ := exists_of_forall₂_left hpairs
                ((hmem _ record).mpr ⟨hm, a, hdata⟩)
              obtain rfl := hp.2 hrep
              obtain ⟨query', hq', hown⟩ := hun record' ((hmem _ record').mp hm').1 a hdata hfake
              obtain rfl : query = query' := by simpa using hq.symm.trans hq'
              rcases hown with hown | ⟨hpanel, -⟩
              · exact .inr ((htook a).mp hown)
              · exact absurd hpanel hd
          · intro hharm record' hm' a hdata hfake
            refine ⟨query, hq, .inl ?_⟩
            obtain ⟨record, hm, hp⟩ := exists_of_forall₂_right hpairs
              ((hmem _ record').mpr ⟨hm', a, hdata⟩)
            by_cases hrep : Replaceable policy (query_domain query.name) lan
              answer.message.answers record
            · obtain ⟨real, -, l, hl, hk, rfl⟩ := hp.1 hrep
              cases hdata
              exact ⟨l, hl, congrArg Prod.fst hk, rfl⟩
            · obtain rfl := hp.2 hrep
              refine (htook a).mpr ?_
              exact (hharm query answer hq ha record' ((hmem _ record').mp hm).1 a hdata
                hfake).resolve_left hrep

end FakeDns

/-! ### An answer with another name's address -/

/-- The question for `b.example`, on the wire. -/
def questionBytes : List UInt8 := [1, 98, 7, 101, 120, 97, 109, 112, 108, 101, 0, 0, 1, 0, 1]

def requestBytes : List UInt8 := [0, 1, 1, 0, 0, 1, 0, 0, 0, 0, 0, 0] ++ questionBytes

/-- One address record: 198.18.0.1, for a minute. -/
def answerBytes : List UInt8 := [0, 1, 0x81, 0x80, 0, 1, 0, 1, 0, 0, 0, 0] ++ questionBytes ++
  [0xc0, 12, 0, 1, 0, 1, 0, 0, 0, 60, 0, 4, 198, 18, 0, 1]

def sampleRequest : Packet :=
  ⟨1, false, 0, true, false, .no_error, false, [⟨"b.example.", TYPE_A, 1⟩], ⟨[], [], [], false⟩⟩

/-- An upstream answer with an address of the reserved range. -/
def sampleAnswer : Packet :=
  ⟨1, true, 0, true, true, .no_error, false, [⟨"b.example.", TYPE_A, 1⟩],
    ⟨[⟨"b.example.", 60, .a FIRST_FAKE⟩], [], [], false⟩⟩

/-- The DNS library on these two packets. -/
@[reducible] def sampleHickory : Hickory where
  from_vec bytes := if bytes = requestBytes then some sampleRequest
    else if bytes = answerBytes then some sampleAnswer else none
  to_vec packet := if packet = sampleRequest then some requestBytes
    else if packet = sampleAnswer then some answerBytes else none
  same_queries queries queries' := queries = queries'

def sampleUpstream : SocketAddr := ⟨Ipv4.addr 192 168 0 1, 53⟩

def sampleProcess : Except String (List UInt8) × FakeDns × Nft.Kernel :=
  letI := sampleRegex
  letI := sampleIdna
  letI := sampleHickory
  leasedDns.process sampleKernel requestBytes blockPolicy sampleUpstream sampleLan
    (fun _ _ => .ok answerBytes) sampleFaults

theorem sampleProcess_eq : sampleProcess = (.ok answerBytes, leasedDns, sampleKernel) := rfl

/-- `answers_steer` for this answer: it is returned, and harmful. -/
theorem answers_steer_sample :
    letI := sampleRegex
    letI := sampleIdna
    letI := sampleHickory
    ∃ request response, Hickory.from_vec requestBytes = some request ∧
      Hickory.to_vec response = some answerBytes ∧
      (Unsteered leasedDns.store request response ↔
        ∀ query answer, request.queries = [query] →
          leasedDns.upstream_answer requestBytes blockPolicy sampleUpstream sampleLan
            (fun _ _ => .ok answerBytes) request = some answer →
          Harmless leasedDns.store blockPolicy (query_domain query.name) sampleLan
            answer.message) := by
  obtain ⟨request, response, hreq, hres, -, hiff⟩ :=
    @FakeDns.answers_steer sampleRegex sampleIdna sampleHickory leasedDns leasedDns sampleKernel
      sampleKernel requestBytes blockPolicy sampleUpstream sampleLan (fun _ _ => .ok answerBytes)
      sampleFaults sampleStore_inv answerBytes sampleProcess_eq
  exact ⟨request, response, hreq, hres, hiff⟩

/-- **An upstream server steers a client**: no rule matches `b.example`, its answer is returned as it
is, and its address is the fake address of the lease for `a.example`. -/
theorem foreign_fake_returned :
    letI := sampleIdna
    leasedDns.store.Inv ∧ sampleProcess.1 = .ok answerBytes ∧
      sampleHickory.from_vec requestBytes = some sampleRequest ∧
      sampleHickory.from_vec answerBytes = some sampleAnswer ∧
      sampleAnswer.message.answers.map Record.data = [.a FIRST_FAKE] ∧
      (leasedDns.store.leases.map fun l => (l.domain, l.mapping.fake)) =
        [("a.example", FIRST_FAKE)] ∧
      sampleRequest.queries.map (fun query => query_domain query.name) = ["b.example"] ∧
      ¬ Unsteered leasedDns.store sampleRequest sampleAnswer := by
  let _ := sampleIdna
  refine ⟨sampleStore_inv, by rw [sampleProcess_eq], by decide +kernel, by decide +kernel,
    by decide +kernel, by decide +kernel, by decide +kernel, fun h => ?_⟩
  obtain ⟨query, hq, hown⟩ := h ⟨"b.example.", 60, .a FIRST_FAKE⟩ (by decide +kernel) FIRST_FAKE rfl
    (by decide +kernel)
  obtain rfl : (⟨"b.example.", TYPE_A, 1⟩ : Query) = query := by simpa [sampleRequest] using hq
  rcases hown with ⟨l, hl, hd, -⟩ | ⟨hd, -⟩
  · obtain rfl : l = sampleLease := by simpa [leasedDns, sampleStore] using hl
    revert hd
    decide +kernel
  · revert hd
    decide +kernel

end Gofro.Agent

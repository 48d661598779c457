import GofroRouter.Agent.FakeDns.Lifetime
import GofroRouter.Agent.Dataplane.Kernel
import GofroRouter.Agent.Dataplane.Mark
import GofroRouter.Agent.FakeDns.Upstream
import GofroRouter.Lib.Closure

/-!
# Rewriting of DNS answers

`resolver.rs`: the addresses of an answer are replaced by fake addresses with a lease, and the leases
go to the kernel.

* `rewrite_records_spec`: what the loop does to the records, to the store and to its list of new
  leases, whether it succeeds or not.
* `rollback_spec`: a failed rewriting takes its leases back.
* **`rewrite_response_spec`**: an answer that is returned has its leases in the kernel.
-/

namespace Gofro.Agent

open Geodata (RegexEngine)

/-! ## Messages -/

/-- The data of a record, as far as the resolver looks at it. -/
inductive RData
  | a (address : Ipv4Addr)
  | aaaa (address : BitVec 128)
  | cname (name : String)
  | https
  | svcb
  /-- any other type, of DNSSEC or not -/
  | other (dnssec : Bool)
deriving DecidableEq

/-- A resource record. -/
structure Record where
  name : String
  ttl : ℕ
  data : RData
deriving DecidableEq

/-- The sections of a response, and its AD bit. -/
structure Message where
  answers : List Record
  name_servers : List Record
  additionals : List Record
  authentic_data : Bool
deriving DecidableEq

/-- `record_type().is_dnssec()` -/
def RData.is_dnssec : RData → Bool
  | .other dnssec => dnssec
  | _ => false

/-- The normalized name, or at least one without case and final dots. -/
def query_domain [Idna] (value : String) : String :=
  match normalize_domain value with
  | .ok domain => domain
  | .error _ => Text.to_ascii_lowercase (Text.trim_end_matches '.' (Text.trim value))

/-- The edge of a CNAME record, from its owner to its target. -/
def cname_edge [Idna] (record : Record) : Option (String × String) :=
  match record.data with
  | .cname name => some (query_domain record.name, query_domain name)
  | _ => none

/-- The queried name, and the names that CNAME records lead to from it. -/
def relevant_names [Idna] (records : List Record) (domain : String) : Finset String :=
  Closure.saturate (records.filterMap cname_edge) records.length {domain}

/-! ## Records -/

/-- Whether SQLite executes a statement, and the time at which it is called. -/
structure SqlCall where
  sql : Bool
  clock : ℤ

/-- The store while an answer is rewritten, with the mappings that are new in it. -/
structure Rewriting where
  store : Store
  added : List FakeMapping

/-- Fake DNAT to an on-link host gives replies an asymmetric return path. -/
def on_link (lan : LanContext) (real : Ipv4Addr) : Bool :=
  is_lan_destination real || real = lan.address || lan.subnet.contains real

section

variable [RegexEngine] [Idna] (domain : String) (policy : RoutingPolicy) (names : Finset String)
  (lan : LanContext)

/-- One turn of the loop of `rewrite_records`. -/
def rewrite_record (call : SqlCall) (record : Record) (st : Rewriting) :
    Except String (Record × Bool) × Rewriting :=
  match record.data with
  | .a real =>
    if query_domain record.name ∈ names ∧ on_link lan real = false then
      let ttl := clamp_ttl record.ttl
      match st.store.allocate call.sql call.clock domain real (policy.target domain real) ttl with
      | (.error e, store) => (.error e, { st with store })
      | (.ok (mapping, new), store) =>
        (.ok ({ record with ttl, data := .a mapping.fake }, true),
          { store, added := if new then st.added ++ [mapping] else st.added })
    else (.ok (record, false), st)
  | _ => (.ok (record, false), st)

/-- The loop; `calls` are the conditions of its turns. -/
def rewrite_records : (ℕ → SqlCall) → List Record → Rewriting →
    Except String (List Record × Bool) × Rewriting
  | _, [], st => (.ok ([], false), st)
  | calls, record :: records, st =>
    match rewrite_record domain policy names lan (calls 0) record st with
    | (.error e, st) => (.error e, st)
    | (.ok (record, rewritten), st) =>
      match rewrite_records (fun n => calls (n + 1)) records st with
      | (.error e, st) => (.error e, st)
      | (.ok (records, more), st) => (.ok (record :: records, rewritten || more), st)

end

/-- Public IPv6 addresses and service bindings are dropped. -/
def retain_ipv4_record (record : Record) : Bool :=
  match record.data with
  | .aaaa address => local_ipv6 address.toNat
  | .https => false
  | .svcb => false
  | _ => true

/-- The records that are kept, and whether some are not. -/
def retain_ipv4_records (records : List Record) : List Record × Bool :=
  let kept := records.filter retain_ipv4_record
  (kept, kept.length != records.length)

/-! ## Responses -/

/-- The leases, and whether the tunnel is on. -/
structure FakeDns where
  store : Store
  vpn_enabled : Bool

/-- The conditions under which a response is rewritten. -/
structure QueryFaults where
  answers : ℕ → SqlCall
  additionals : ℕ → SqlCall
  install : Bool
  rollback : Bool

namespace FakeDns

/-- The leases of a failed rewriting are taken back. -/
def rollback (dns : FakeDns) (ok : Bool) (error : String) (st : Rewriting) : String × FakeDns :=
  if st.added.isEmpty then (error, { dns with store := st.store })
  else match st.store.remove_mappings ok st.added with
    | (.ok (), store) => (error, { dns with store })
    | (.error rollback, store) =>
      ("DNS mapping failed: " ++ error ++ "; store rollback failed: " ++ rollback,
        { dns with store })

variable [RegexEngine] [Idna] (dns : FakeDns) (k : Nft.Kernel) (message : Message)
  (domain : String) (policy : RoutingPolicy) (lan : LanContext) (faults : QueryFaults)

/-- The loop over the records of a section; an error rolls back what it has added. -/
def rewrite_records : Except String (Message × Bool) × FakeDns × Nft.Kernel :=
  let fail error st k :=
    let failure := dns.rollback faults.rollback error st
    (.error failure.1, failure.2, k)
  let names := relevant_names message.answers domain
  match Agent.rewrite_records domain policy names lan faults.answers message.answers
      ⟨dns.store, []⟩ with
  | (.error e, st) => fail e st k
  | (.ok (answers, rewritten), st) =>
    match Agent.rewrite_records domain policy names lan faults.additionals message.additionals
        st with
    | (.error e, st) => fail e st k
    | (.ok (additionals, more), st) =>
      match install_mappings faults.install k st.added with
      | (.error e, k) => fail e st k
      | (.ok (), k) =>
        (.ok ({ message with answers, additionals }, rewritten || more),
          { dns with store := st.store }, k)

/-- The answer loses its signatures once a record has been changed or dropped. -/
def drop_dnssec (message : Message) : Message where
  answers := message.answers.filter fun record => !record.data.is_dnssec
  name_servers := message.name_servers.filter fun record => !record.data.is_dnssec
  additionals := message.additionals.filter fun record => !record.data.is_dnssec
  authentic_data := false

/-- The part of `rewrite_response` after the addresses. -/
def filter_response (restricted rewritten : Bool) (message : Message) : Message :=
  let (answers, fewer) := retain_ipv4_records message.answers
  let (additionals, fewer') := retain_ipv4_records message.additionals
  let filtered := restricted && (fewer || fewer')
  let message := if restricted then { message with answers, additionals } else message
  if rewritten || filtered then drop_dnssec message else message

/-- An upstream answer becomes the answer of the router. -/
def rewrite_response : Except String Message × FakeDns × Nft.Kernel :=
  let target := (policy.domain_target domain).map Prod.fst
  let restricted := dns.vpn_enabled || target = some .block || target = some .warp
  let (result, dns, k) :=
    if target.isSome then dns.rewrite_records k message domain policy lan faults
    else (.ok (message, false), dns, k)
  (result.map fun (message, rewritten) => filter_response restricted rewritten message, dns, k)

/-! ## Expired leases -/

/-- The conditions under which expired leases are purged. -/
structure PurgeFaults where
  clock : ℤ
  remove : Bool
  sql : Bool
  reinstall : Bool

/-- The number of leases that are gone. -/
def purge_expired (dns : FakeDns) (k : Nft.Kernel) (faults : PurgeFaults) :
    Except String ℕ × FakeDns × Nft.Kernel :=
  match dns.store.expired faults.clock with
  | .error e => (.error e, dns, k)
  | .ok expired =>
    if expired.isEmpty then (.ok 0, dns, k)
    else match remove_mappings faults.remove k expired with
      | (.error e, k) => (.error e, dns, k)
      | (.ok (), k) =>
        match dns.store.remove_mappings faults.sql expired with
        | (.ok (), store) => (.ok expired.length, { dns with store }, k)
        | (.error e, store) =>
          match install_mappings faults.reinstall k expired with
          | (.ok (), k) => (.error e, { dns with store }, k)
          | (.error rollback, k) =>
            (.error ("expired lease cleanup failed: " ++ e ++ "; dataplane rollback failed: " ++
              rollback), { dns with store }, k)

end FakeDns

/-! ## What rewriting does to the store -/

/-- Every lease has the target that the policy gives it. -/
def Store.Follows [RegexEngine] (s : Store) (policy : RoutingPolicy) : Prop :=
  ∀ l ∈ s.leases, l.mapping.target = policy.target l.domain l.mapping.real

/-- The mappings of the leases, as the kernel has them. -/
def Store.mappings (s : Store) : List FakeMapping := s.leases.map Lease.mapping

theorem Store.Inv.nodup {s : Store} (h : s.Inv) : (s.mappings.map FakeMapping.fake).Nodup := by
  rw [Store.mappings, List.map_map]
  exact h.fakes

theorem Store.Inv.pooled {s : Store} (h : s.Inv) : Pooled s.mappings := by
  refine ⟨h.nodup, fun m hm => ?_⟩
  obtain ⟨l, hl, rfl⟩ := List.mem_map.mp hm
  exact h.pool l hl

/-- The store is one of `mappings` with the new leases behind them. -/
structure Rewriting.Inv (mappings : List FakeMapping) (st : Rewriting) : Prop where
  store : st.store.Inv
  mappings_eq : st.store.mappings = mappings ++ st.added

/-- Later in the same rewriting: no lease is lost, and leases keep to the policy. -/
structure Rewriting.Leads [RegexEngine] (policy : RoutingPolicy) (st st' : Rewriting) : Prop where
  keeps : ∀ l ∈ st.store.leases, ∃ l' ∈ st'.store.leases, l'.key = l.key ∧ l'.mapping = l.mapping
  follows : st.store.Follows policy → st'.store.Follows policy

/-- A record of the answer and the record that takes its place. -/
inductive Rewrites [Idna] (domain : String) (names : Finset String) (lan : LanContext) (s : Store)
    (record : Record) : Record → Prop
  | faked {real : Ipv4Addr} {l : Lease} (hd : record.data = .a real)
    (hn : query_domain record.name ∈ names) (ho : on_link lan real = false) (hl : l ∈ s.leases)
    (hk : l.key = (domain, real)) :
    Rewrites domain names lan s record
      { record with ttl := clamp_ttl record.ttl, data := .a l.mapping.fake }
  | kept (h : ∀ real, record.data = .a real → query_domain record.name ∈ names →
      on_link lan real = true) : Rewrites domain names lan s record record

section

variable [RegexEngine] {domain : String} {policy : RoutingPolicy} {names : Finset String}
  {lan : LanContext} {mappings : List FakeMapping} {st st' : Rewriting}

theorem Rewriting.Leads.refl (policy : RoutingPolicy) (st : Rewriting) : st.Leads policy st :=
  ⟨fun l hl => ⟨l, hl, rfl, rfl⟩, id⟩

theorem Rewriting.Leads.trans {st'' : Rewriting} (h : st.Leads policy st')
    (h' : st'.Leads policy st'') : st.Leads policy st'' := by
  refine ⟨fun l hl => ?_, fun hf => h'.follows (h.follows hf)⟩
  obtain ⟨l', hl', hk, hm⟩ := h.keeps l hl
  obtain ⟨l'', hl'', hk', hm'⟩ := h'.keeps l' hl'
  exact ⟨l'', hl'', hk'.trans hk, hm'.trans hm⟩

theorem Rewrites.mono [Idna] {record record' : Record} (h : st.Leads policy st')
    (hr : Rewrites domain names lan st.store record record') :
    Rewrites domain names lan st'.store record record' := by
  cases hr with
  | faked hd hn ho hl hk =>
    obtain ⟨l', hl', hk', hm⟩ := h.keeps _ hl
    rw [← hm]
    exact .faked hd hn ho hl' (hk'.trans hk)
  | kept h => exact .kept h

/-- **An allocation during a rewriting.** -/
theorem allocate_leads (h : st.Inv mappings) (call : SqlCall) (domain : String) (real : Ipv4Addr)
    (ttl : ℕ) {res : Except String (FakeMapping × Bool)} {s : Store}
    (he : st.store.allocate call.sql call.clock domain real (policy.target domain real) ttl =
      (res, s)) :
    (∀ e, res = .error e → Rewriting.Inv mappings { st with store := s } ∧
      st.Leads policy { st with store := s }) ∧
    ∀ m new, res = .ok (m, new) →
      Rewriting.Inv mappings ⟨s, if new then st.added ++ [m] else st.added⟩ ∧
      st.Leads policy ⟨s, if new then st.added ++ [m] else st.added⟩ ∧
      ∃ l ∈ s.leases, l.key = (domain, real) ∧ l.mapping = m := by
  have hspec := Store.allocate_spec h.store call.sql call.clock domain real
    (policy.target domain real) ttl
  rw [he] at hspec
  obtain ⟨hinv, ha⟩ := hspec
  have hmap := h.mappings_eq
  unfold Store.mappings at hmap
  cases ha with
  | failed hs =>
    refine ⟨fun e _ => ⟨⟨hinv, ?_⟩, fun l hl => ⟨l, hs ▸ hl, rfl, rfl⟩, fun hf l hl => ?_⟩,
      fun _ _ hres => nomatch hres⟩
    · show List.map Lease.mapping _ = _
      rw [hs]
      exact hmap
    · exact hf l (hs ▸ hl)
  | renewed hl hk hs =>
    refine ⟨fun _ hres => (nomatch hres), fun m new hres => ?_⟩
    cases hres
    have hmem : ∀ l' ∈ st.store.leases, Store.extend (domain, real) (lease_expiry call.clock ttl) l'
        ∈ s.leases := fun l' hl' => hs ▸ List.mem_map_of_mem hl'
    refine ⟨⟨hinv, ?_⟩, ⟨fun l' hl' => ?_, fun hf l' hl' => ?_⟩, ?_⟩
    · show List.map Lease.mapping s.leases = mappings ++ st.added
      rw [hs, List.map_map, ← hmap]
      exact List.map_congr_left fun l' _ => Store.extend_mapping _ _ l'
    · exact ⟨_, hmem l' hl', by simp, by simp⟩
    · rw [show s.leases = _ from hs] at hl'
      obtain ⟨l₀, hl₀, rfl⟩ := List.mem_map.mp hl'
      have hd : (Store.extend (domain, real) (lease_expiry call.clock ttl) l₀).domain = l₀.domain :=
        congrArg Prod.fst (Store.extend_key _ _ l₀)
      rw [Store.extend_mapping, hd]
      exact hf l₀ hl₀
    · exact ⟨_, hmem _ hl, by simpa using hk, by simp⟩
  | admitted hfree hnew hs =>
    refine ⟨fun _ hres => (nomatch hres), fun m new hres => ?_⟩
    cases hres
    refine ⟨⟨hinv, ?_⟩, ⟨fun l' hl' => ⟨l', ?_, rfl, rfl⟩, fun hf l' hl' => ?_⟩,
      ⟨domain, ⟨_, real, policy.target domain real⟩, lease_expiry call.clock ttl⟩, ?_, rfl, rfl⟩
    · show List.map Lease.mapping s.leases = mappings ++ (st.added ++ _)
      rw [hs, List.map_append, hmap, List.append_assoc]
      rfl
    · exact hs ▸ List.mem_append_left _ hl'
    · rw [show s.leases = _ from hs] at hl'
      rcases List.mem_append.mp hl' with hl' | hl'
      · exact hf l' hl'
      · rw [List.mem_singleton.mp hl']
    · rw [hs]
      exact List.mem_append_right _ (List.mem_singleton_self _)

/-- **One record.** -/
theorem rewrite_record_spec [Idna] (h : st.Inv mappings) (call : SqlCall) (record : Record)
    {res : Except String (Record × Bool)}
    (he : rewrite_record domain policy names lan call record st = (res, st')) :
    st'.Inv mappings ∧ st.Leads policy st' ∧
      ∀ record' rewritten, res = .ok (record', rewritten) →
        Rewrites domain names lan st'.store record record' := by
  have hkept : (∀ real, record.data = .a real → query_domain record.name ∈ names →
      on_link lan real = true) → (.ok (record, false), st) = (res, st') →
      st'.Inv mappings ∧ st.Leads policy st' ∧
        ∀ record' rewritten, res = .ok (record', rewritten) →
          Rewrites domain names lan st'.store record record' := by
    intro hno hres
    cases hres
    refine ⟨h, .refl policy st, fun record' rewritten hr => ?_⟩
    cases hr
    exact .kept hno
  unfold rewrite_record at he
  split at he
  · rename_i real hd
    split at he
    · rename_i hcond
      simp only at he
      split at he
      · rename_i e s ha
        cases he
        obtain ⟨hi, hl⟩ := (allocate_leads h call domain real _ ha).1 e rfl
        exact ⟨hi, hl, fun _ _ hr => nomatch hr⟩
      · rename_i m new s ha
        cases he
        obtain ⟨hi, hl, l, hmem, hk, hm⟩ := (allocate_leads h call domain real _ ha).2 m new rfl
        refine ⟨hi, hl, fun record' rewritten hr => ?_⟩
        cases hr
        rw [← hm]
        exact .faked hd hcond.1 hcond.2 hmem hk
    · rename_i hcond
      refine hkept (fun real' hd' hn => ?_) he
      rw [hd, RData.a.injEq] at hd'
      rw [← hd', ← Bool.not_eq_false]
      exact fun ho => hcond ⟨hn, ho⟩
  · rename_i hno
    exact hkept (fun real hd => absurd hd (hno real)) he

/-- **The loop over the records**, whether it succeeds or stops with an error. -/
theorem rewrite_records_spec [Idna] (h : st.Inv mappings) (calls : ℕ → SqlCall)
    (records : List Record) {res : Except String (List Record × Bool)}
    (he : rewrite_records domain policy names lan calls records st = (res, st')) :
    st'.Inv mappings ∧ st.Leads policy st' ∧
      ∀ records' rewritten, res = .ok (records', rewritten) →
        List.Forall₂ (Rewrites domain names lan st'.store) records records' := by
  induction records generalizing calls st st' res with
  | nil =>
    rw [rewrite_records] at he
    cases he
    refine ⟨h, .refl policy st, fun records' rewritten hr => ?_⟩
    cases hr
    exact .nil
  | cons record records ih =>
    rw [rewrite_records] at he
    split at he
    · rename_i e st₁ h₁
      cases he
      obtain ⟨hi, hl, -⟩ := rewrite_record_spec h _ _ h₁
      exact ⟨hi, hl, fun _ _ hr => nomatch hr⟩
    · rename_i record' rewritten st₁ h₁
      obtain ⟨hi, hl, hr⟩ := rewrite_record_spec h _ _ h₁
      split at he
      · rename_i e st₂ h₂
        cases he
        obtain ⟨hi', hl', -⟩ := ih hi _ h₂
        exact ⟨hi', hl.trans hl', fun _ _ hr => nomatch hr⟩
      · rename_i records' more st₂ h₂
        cases he
        obtain ⟨hi', hl', hrs⟩ := ih hi _ h₂
        refine ⟨hi', hl.trans hl', fun records' rewritten hres => ?_⟩
        cases hres
        exact .cons ((hr _ _ rfl).mono hl') (hrs _ _ rfl)

end

/-! ## Address records -/

/-- An IPv4 address. -/
def RData.is_a : RData → Bool
  | .a _ => true
  | _ => false

theorem RData.is_a_iff {data : RData} : data.is_a = true ↔ ∃ real, data = .a real := by
  cases data <;> simp [RData.is_a]

/-- The address records of a section. -/
def address_records (records : List Record) : List Record :=
  records.filter fun record => record.data.is_a

theorem address_records_filter {records : List Record} {keep : Record → Bool}
    (h : ∀ record, record.data.is_a = true → keep record = true) :
    address_records (records.filter keep) = address_records records := by
  rw [address_records, address_records, List.filter_filter]
  refine List.filter_congr fun record _ => ?_
  cases hd : record.data.is_a with
  | true => rw [h record hd, Bool.and_true]
  | false => exact Bool.false_and _

theorem address_records_retain (records : List Record) :
    address_records (retain_ipv4_records records).1 = address_records records := by
  refine address_records_filter fun record hd => ?_
  obtain ⟨real, hd⟩ := RData.is_a_iff.mp hd
  rw [retain_ipv4_record, hd]

theorem address_records_dnssec (records : List Record) :
    address_records (records.filter fun record => !record.data.is_dnssec) =
      address_records records := by
  refine address_records_filter fun record hd => ?_
  obtain ⟨real, hd⟩ := RData.is_a_iff.mp hd
  rw [hd]
  rfl

theorem Rewrites.is_a [Idna] {domain : String} {names : Finset String} {lan : LanContext}
    {s : Store} {record record' : Record} (h : Rewrites domain names lan s record record') :
    record.data.is_a = true ↔ record'.data.is_a = true := by
  cases h with
  | faked hd => rw [hd]; rfl
  | kept => exact Iff.rfl

/-! ## Taking leases back -/

theorem Store.mappings_remove (s : Store) (removed : List FakeMapping) :
    (s.remove_mappings true removed).2.mappings = retained removed s.mappings := by
  rw [Store.mappings, Store.mappings, retained, List.filter_map]
  unfold Store.remove_mappings
  rw [if_pos rfl]
  refine congrArg _ (List.filter_congr fun l _ => ?_)
  rw [Function.comp_apply, List.contains_eq_mem, decide_not]

theorem retained_append {mappings added : List FakeMapping}
    (hn : ((mappings ++ added).map FakeMapping.fake).Nodup) :
    retained added (mappings ++ added) = mappings := by
  rw [List.map_append, List.nodup_append] at hn
  have hkeep : retained added mappings = mappings := by
    refine List.filter_eq_self.mpr fun m hm => ?_
    rw [Bool.not_eq_true', ← Bool.not_eq_true, List.contains_iff_mem]
    exact fun h => hn.2.2 _ (List.mem_map_of_mem hm) _ h rfl
  have hdrop : retained added added = [] := by
    refine List.filter_eq_nil_iff.mpr fun m hm => ?_
    rw [Bool.not_eq_true', Bool.not_eq_false, List.contains_iff_mem]
    exact List.mem_map_of_mem hm
  rw [retained, List.filter_append]
  exact (congrArg₂ _ hkeep hdrop).trans (List.append_nil _)

theorem Store.Follows.remove [RegexEngine] {s : Store} {policy : RoutingPolicy}
    (h : s.Follows policy) (sql : Bool) (removed : List FakeMapping) :
    (s.remove_mappings sql removed).2.Follows policy := by
  unfold Store.remove_mappings
  split_ifs
  · exact fun l hl => h l (List.mem_filter.mp hl).1
  · exact h

namespace FakeDns

section

variable [RegexEngine] {dns dns' : FakeDns} {policy : RoutingPolicy} {mappings : List FakeMapping}
  {st : Rewriting}

/-- **A rollback that SQLite executes** leaves the mappings that were there before. -/
theorem rollback_spec (dns : FakeDns) (policy : RoutingPolicy) (h : st.Inv mappings) (ok : Bool)
    (error : String) :
    (dns.rollback ok error st).2.store.Inv ∧
      (st.store.Follows policy → (dns.rollback ok error st).2.store.Follows policy) ∧
      (dns.rollback ok error st).2.vpn_enabled = dns.vpn_enabled ∧
      (ok = true → (dns.rollback ok error st).2.store.mappings = mappings) := by
  unfold rollback
  split
  · rename_i he
    refine ⟨h.store, id, rfl, fun _ => ?_⟩
    have hm := h.mappings_eq
    rwa [List.isEmpty_iff.mp he, List.append_nil] at hm
  · have hinv := Store.remove_mappings_inv h.store ok st.added
    have hfollows := fun hf : st.store.Follows policy => hf.remove ok st.added
    have hmap : ok = true → (st.store.remove_mappings ok st.added).2.mappings = mappings := by
      rintro rfl
      rw [Store.mappings_remove, h.mappings_eq]
      exact retained_append (h.mappings_eq ▸ h.store.nodup)
    split
    · rename_i s hs
      rw [hs] at hinv hfollows hmap
      exact ⟨hinv, hfollows, rfl, hmap⟩
    · rename_i e s hs
      rw [hs] at hinv hfollows hmap
      exact ⟨hinv, hfollows, rfl, hmap⟩

end

theorem address_records_filter_response (restricted rewritten : Bool) (message : Message) :
    address_records (filter_response restricted rewritten message).answers =
        address_records message.answers ∧
      address_records (filter_response restricted rewritten message).additionals =
        address_records message.additionals := by
  simp only [filter_response]
  split_ifs <;>
    simp only [drop_dnssec, address_records_dnssec, address_records_retain, and_self]

variable [RegexEngine] [Idna]

/-- **What rewriting an answer does**: it fails, and the kernel stays as it is; or every record is
rewritten, and the new leases are in the kernel. -/
inductive Rewritten (policy : RoutingPolicy) (domain : String) (lan : LanContext)
    (message : Message) (dns : FakeDns) (k : Nft.Kernel) (rollback : Bool) :
    Except String (Message × Bool) → FakeDns → Nft.Kernel → Prop
  | failed {e : String} {dns' : FakeDns}
    (hm : rollback = true → dns'.store.mappings = dns.store.mappings) :
    Rewritten policy domain lan message dns k rollback (.error e) dns' k
  | done {answers additionals : List Record} {rewritten install : Bool} {dns' : FakeDns}
    {k' : Nft.Kernel} {added : List FakeMapping}
    (hm : dns'.store.mappings = dns.store.mappings ++ added)
    (hk : install_mappings install k added = (.ok (), k'))
    (ha : List.Forall₂ (Rewrites domain (relevant_names message.answers domain) lan dns'.store)
      message.answers answers)
    (hd : List.Forall₂ (Rewrites domain (relevant_names message.answers domain) lan dns'.store)
      message.additionals additionals) :
    Rewritten policy domain lan message dns k rollback
      (.ok ({ message with answers, additionals }, rewritten)) dns' k'

variable {dns dns' : FakeDns} {k k' : Nft.Kernel} {message : Message} {domain : String}
  {policy : RoutingPolicy} {lan : LanContext} {faults : QueryFaults}

theorem rewrite_records_spec (hs : dns.store.Inv) {res : Except String (Message × Bool)}
    (h : dns.rewrite_records k message domain policy lan faults = (res, dns', k')) :
    dns'.store.Inv ∧ (dns.store.Follows policy → dns'.store.Follows policy) ∧
      dns'.vpn_enabled = dns.vpn_enabled ∧
      Rewritten policy domain lan message dns k faults.rollback res dns' k' := by
  have h₀ : Rewriting.Inv dns.store.mappings ⟨dns.store, []⟩ :=
    ⟨hs, (List.append_nil _).symm⟩
  have hfail : ∀ (st : Rewriting) (e : String), st.Inv dns.store.mappings →
      Rewriting.Leads policy ⟨dns.store, []⟩ st →
      (.error (dns.rollback faults.rollback e st).1, (dns.rollback faults.rollback e st).2, k) =
        (res, dns', k') →
      dns'.store.Inv ∧ (dns.store.Follows policy → dns'.store.Follows policy) ∧
        dns'.vpn_enabled = dns.vpn_enabled ∧
        Rewritten policy domain lan message dns k faults.rollback res dns' k' := by
    intro st e hi hl hr
    have hspec := rollback_spec dns policy hi faults.rollback e
    cases hr
    exact ⟨hspec.1, fun hf => hspec.2.1 (hl.follows hf), hspec.2.2.1, .failed hspec.2.2.2⟩
  simp only [FakeDns.rewrite_records] at h
  split at h
  · rename_i e st h₁
    obtain ⟨hi, hl, -⟩ := Agent.rewrite_records_spec h₀ _ _ h₁
    exact hfail st e hi hl h
  · rename_i answers rewritten st h₁
    obtain ⟨hi, hl, ha⟩ := Agent.rewrite_records_spec h₀ _ _ h₁
    split at h
    · rename_i e st' h₂
      obtain ⟨hi', hl', -⟩ := Agent.rewrite_records_spec hi _ _ h₂
      exact hfail st' e hi' (hl.trans hl') h
    · rename_i additionals more st' h₂
      obtain ⟨hi', hl', hd⟩ := Agent.rewrite_records_spec hi _ _ h₂
      split at h
      · rename_i e k₁ h₃
        rw [run_nft_error h₃] at h
        exact hfail st' e hi' (hl.trans hl') h
      · rename_i k₁ h₃
        cases h
        refine ⟨hi'.store, (hl.trans hl').follows, rfl, .done hi'.mappings_eq h₃ ?_ (hd _ _ rfl)⟩
        exact (ha _ _ rfl).imp fun _ _ hr => hr.mono hl'

/-! ## The answer that is returned -/

/-- A record of the answer and the record that is returned for it. -/
inductive Answered (policy : RoutingPolicy) (domain : String) (names : Finset String)
    (lan : LanContext) (s : Store) (record : Record) : Record → Prop
  | rewritten {record' : Record} (h : Rewrites domain names lan s record record') :
    Answered policy domain names lan s record record'
  | passed (hd : policy.domain_target domain = none) :
    Answered policy domain names lan s record record

/-- **A response that is returned**: its leases are new in the kernel, and every address record has
its place. -/
theorem rewrite_response_spec (hs : dns.store.Inv) {response : Message}
    (h : dns.rewrite_response k message domain policy lan faults = (.ok response, dns', k')) :
    dns'.store.Inv ∧ (dns.store.Follows policy → dns'.store.Follows policy) ∧
      (∃ added install, dns'.store.mappings = dns.store.mappings ++ added ∧
        install_mappings install k added = (.ok (), k')) ∧
      List.Forall₂
        (Answered policy domain (relevant_names message.answers domain) lan dns'.store)
        (address_records message.answers) (address_records response.answers) ∧
      List.Forall₂
        (Answered policy domain (relevant_names message.answers domain) lan dns'.store)
        (address_records message.additionals) (address_records response.additionals) := by
  simp only [rewrite_response] at h
  cases ht : (policy.domain_target domain).map Prod.fst with
  | none =>
    rw [ht] at h
    have hd : policy.domain_target domain = none := Option.map_eq_none_iff.mp ht
    simp only [Option.isSome_none, Bool.false_eq_true, if_false] at h
    cases h
    obtain ⟨ha, hx⟩ := address_records_filter_response
      (dns.vpn_enabled || decide ((none : Option RouteTarget) = some .block) ||
        decide ((none : Option RouteTarget) = some .warp)) false message
    have hsame : ∀ records : List Record, List.Forall₂
        (Answered policy domain (relevant_names message.answers domain) lan dns.store)
        records records := fun records => List.forall₂_same.mpr fun record _ => .passed hd
    refine ⟨hs, id, ⟨[], true, (List.append_nil _).symm, rfl⟩, ?_, ?_⟩
    · rw [ha]; exact hsame _
    · rw [hx]; exact hsame _
  | some target =>
    rw [ht] at h
    simp only [Option.isSome_some, if_true] at h
    rcases hr : dns.rewrite_records k message domain policy lan faults with ⟨res, dns₁, k₁⟩
    rw [hr] at h
    simp only [Prod.mk.injEq] at h
    obtain ⟨hres, rfl, rfl⟩ := h
    obtain ⟨hi, hf, -, hrw⟩ := rewrite_records_spec hs hr
    cases hrw with
    | failed hm => cases hres
    | done hm hk ha hd =>
      cases hres
      obtain ⟨ha', hd'⟩ := address_records_filter_response _ _ _
      refine ⟨hi, hf, ⟨_, _, hm, hk⟩, ?_, ?_⟩
      · rw [ha']
        exact (List.rel_filter (fun _ _ h => h.is_a) ha).imp fun _ _ h => .rewritten h
      · rw [hd']
        exact (List.rel_filter (fun _ _ h => h.is_a) hd).imp fun _ _ h => .rewritten h

end FakeDns

end Gofro.Agent

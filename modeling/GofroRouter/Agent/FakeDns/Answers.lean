import GofroRouter.Agent.FakeDns.Enforce

/-!
# Answers as a whole

What `rewrite_response` makes of a message, section by section, and of the store when it fails.

* `relevant_names_terminates`: the loop ends; the order of the records does not matter.
* `rewrite_records_flag`: when a section counts as rewritten.
* `filter_response_changed`, `filter_response_same`: what is dropped from an answer.
* `rewrite_records_grown`, `rollback_grown`: the leases of a failed rewriting.
* **`rewrite_response_complete`**: the answer that is returned, and the leases that are left.
-/

namespace Gofro.Agent

open Geodata (RegexEngine)

/-! ## Relevant names -/

/-- **The loop over the records ends**: some pass adds nothing, after at most one pass for each
record. -/
theorem relevant_names_terminates [Idna] (records : List Record) (domain : String) :
    ∃ passes ≤ records.length,
      relevant_names records domain =
        (Closure.pass (records.filterMap cname_edge))^[passes] {domain} ∧
      Closure.pass (records.filterMap cname_edge) (relevant_names records domain) =
        relevant_names records domain := by
  obtain ⟨passes, hle, he⟩ : ∃ passes ≤ records.length, relevant_names records domain = _ :=
    Closure.saturate_eq_iterate records.length
  refine ⟨passes, hle, he, Closure.pass_saturate ?_⟩
  exact (List.length_filter_le _ _).trans (List.length_filterMap_le _ _)

theorem relevant_names_perm [Idna] {records records' : List Record} (h : records.Perm records')
    (domain : String) : relevant_names records domain = relevant_names records' domain := by
  have haliased : Aliased records = Aliased records' := by
    funext a b
    simp [Aliased, h.mem_iff]
  ext name
  rw [mem_relevant_names, mem_relevant_names, haliased]

/-! ## What is rewritten -/

/-- An address record that gets a fake address: a domain rule matches the query, CNAME records lead
to the record, and its address is not on the LAN. -/
def Replaceable [RegexEngine] [Idna] (policy : RoutingPolicy) (domain : String) (lan : LanContext)
    (answers : List Record) (record : Record) : Prop :=
  (policy.domain_target domain).isSome = true ∧
    Relation.ReflTransGen (Aliased answers) domain (query_domain record.name) ∧
    ∃ real, record.data = .a real ∧ on_link lan real = false

/-- The record that is returned: a replaceable one with the fake address of its lease, and every
other one as it is. -/
def Placed [RegexEngine] [Idna] (policy : RoutingPolicy) (domain : String) (lan : LanContext)
    (answers : List Record) (s : Store) (record record' : Record) : Prop :=
  (Replaceable policy domain lan answers record → ∃ real, record.data = .a real ∧
    ∃ l ∈ s.leases, l.key = (domain, real) ∧
      record' = { record with ttl := clamp_ttl record.ttl, data := .a l.mapping.fake }) ∧
  (¬ Replaceable policy domain lan answers record → record' = record)

/-- Nothing but IPv4 is returned for the domain. -/
def FakeDns.restricted [RegexEngine] (dns : FakeDns) (policy : RoutingPolicy) (domain : String) :
    Bool :=
  let target := (policy.domain_target domain).map Prod.fst
  dns.vpn_enabled || target = some .block || target = some .warp

/-- A record of the message is rewritten or dropped. -/
def Changed [RegexEngine] [Idna] (dns : FakeDns) (policy : RoutingPolicy) (domain : String)
    (lan : LanContext) (message : Message) : Prop :=
  ∃ record ∈ message.answers ++ message.additionals,
    Replaceable policy domain lan message.answers record ∨
      dns.restricted policy domain = true ∧ retain_ipv4_record record = false

section

variable [RegexEngine] [Idna] {domain : String} {policy : RoutingPolicy} {names : Finset String}
  {lan : LanContext}

theorem rewrite_records_flag (calls : ℕ → SqlCall) (records : List Record) {st st' : Rewriting}
    {records' : List Record} {rewritten : Bool}
    (he : rewrite_records domain policy names lan calls records st =
      (.ok (records', rewritten), st')) :
    rewritten = true ↔ ∃ record ∈ records, query_domain record.name ∈ names ∧
      ∃ real, record.data = .a real ∧ on_link lan real = false := by
  induction records generalizing calls st records' rewritten with
  | nil =>
    rw [rewrite_records] at he
    cases he
    simp
  | cons record records ih =>
    rw [rewrite_records] at he
    split at he
    · cases he
    · rename_i record' first st₁ h₁
      split at he
      · cases he
      · rename_i records'' more st₂ h₂
        cases he
        have hfirst : first = true ↔ query_domain record.name ∈ names ∧
            ∃ real, record.data = .a real ∧ on_link lan real = false := by
          unfold rewrite_record at h₁
          split at h₁
          · rename_i real hd
            split at h₁
            · rename_i hc
              simp only at h₁
              split at h₁
              · cases h₁
              · cases h₁
                exact ⟨fun _ => ⟨hc.1, real, hd, hc.2⟩, fun _ => rfl⟩
            · rename_i hc
              cases h₁
              refine ⟨fun h => absurd h Bool.false_ne_true, ?_⟩
              rintro ⟨hn, real', hd', ho⟩
              rw [hd, RData.a.injEq] at hd'
              exact absurd ⟨hn, hd' ▸ ho⟩ hc
          · rename_i hno
            cases h₁
            refine ⟨fun h => absurd h Bool.false_ne_true, ?_⟩
            rintro ⟨-, real, hd, -⟩
            exact absurd hd (hno real)
        rw [Bool.or_eq_true, hfirst, ih _ h₂]
        simp only [List.mem_cons, exists_eq_or_imp]

/-- What the loop does to a record, as far as the message and the leases tell. -/
theorem Rewrites.placed {answers : List Record} {s : Store} {record record' : Record}
    (hd : (policy.domain_target domain).isSome = true)
    (h : Rewrites domain (relevant_names answers domain) lan s record record') :
    Placed policy domain lan answers s record record' := by
  cases h with
  | faked ha hn ho hl hk =>
    exact ⟨fun _ => ⟨_, ha, _, hl, hk, rfl⟩,
      fun hno => absurd ⟨hd, mem_relevant_names.mp hn, _, ha, ho⟩ hno⟩
  | kept hon =>
    refine ⟨fun hr => ?_, fun _ => rfl⟩
    obtain ⟨-, hn, real, ha, ho⟩ := hr
    rw [hon real ha (mem_relevant_names.mpr hn)] at ho
    cases ho

theorem Placed.refl {answers : List Record} (hd : (policy.domain_target domain).isSome = false)
    (s : Store) (record : Record) : Placed policy domain lan answers s record record :=
  ⟨fun h => absurd h.1 (by simp [hd]), fun _ => rfl⟩

theorem Placed.data {answers : List Record} {s : Store} {record record' : Record}
    (h : Placed policy domain lan answers s record record') :
    ((∃ real, record.data = .a real) ∧ ∃ fake, record'.data = .a fake) ∨ record' = record := by
  by_cases hr : Replaceable policy domain lan answers record
  · obtain ⟨real, hd, l, -, -, rfl⟩ := h.1 hr
    exact .inl ⟨⟨real, hd⟩, l.mapping.fake, rfl⟩
  · exact .inr (h.2 hr)

/-- Sections keep their records in order, also after some are dropped by their type. -/
theorem placed_filter {answers : List Record} {s : Store} {records records' : List Record}
    (h : List.Forall₂ (Placed policy domain lan answers s) records records') {keep : Record → Bool}
    (ha : ∀ record real, record.data = .a real → keep record = true) :
    List.Forall₂ (Placed policy domain lan answers s) (records.filter keep)
      (records'.filter keep) := by
  refine List.rel_filter (fun record record' hp => ?_) h
  rcases hp.data with ⟨⟨real, hd⟩, fake, hd'⟩ | rfl
  · exact iff_of_true (ha record real hd) (ha record' fake hd')
  · exact Iff.rfl

/-- A type of record that addresses do not have is in both sections or in neither. -/
theorem placed_exists {answers : List Record} {s : Store} {records records' : List Record}
    (h : List.Forall₂ (Placed policy domain lan answers s) records records') {keep : Record → Bool}
    (ha : ∀ record real, record.data = .a real → keep record = true) :
    (∃ record ∈ records', keep record = false) ↔ ∃ record ∈ records, keep record = false := by
  induction h with
  | nil => simp
  | cons hp _ ih =>
    simp only [List.mem_cons, exists_eq_or_imp, ih]
    rcases hp.data with ⟨⟨real, hd⟩, fake, hd'⟩ | rfl
    · rw [ha _ real hd, ha _ fake hd']
    · exact Iff.rfl

end

/-! ## What is dropped -/

theorem retain_address (record : Record) (real : Ipv4Addr) (h : record.data = .a real) :
    retain_ipv4_record record = true := by rw [retain_ipv4_record, h]

theorem signed_address (record : Record) (real : Ipv4Addr) (h : record.data = .a real) :
    (!record.data.is_dnssec) = true := by rw [h]; rfl

theorem retained_ipv4 {record : Record} (h : retain_ipv4_record record = true) :
    record.data ≠ .https ∧ record.data ≠ .svcb ∧
      ∀ address, record.data = .aaaa address → local_ipv6 address.toNat = true := by
  unfold retain_ipv4_record at h
  cases hd : record.data <;> simp_all

theorem retain_ipv4_records_snd (records : List Record) :
    (retain_ipv4_records records).2 = true ↔
      ∃ record ∈ records, retain_ipv4_record record = false := by
  rw [retain_ipv4_records]
  simp only [bne_iff_ne, ne_eq, List.length_filter_eq_length_iff]
  push Not
  simp

/-- The records of a section that are returned, up to their addresses. -/
def kept_records (restricted changed : Bool) (records : List Record) : List Record :=
  let records := if restricted then records.filter retain_ipv4_record else records
  if changed then records.filter fun record => !record.data.is_dnssec else records

section

variable [RegexEngine] [Idna] {domain : String} {policy : RoutingPolicy} {lan : LanContext}
  {answers : List Record} {s : Store} {records records' : List Record} {restricted : Bool}
  {record : Record}

theorem unsigned_of_placed
    (h : List.Forall₂ (Placed policy domain lan answers s)
      (kept_records restricted true records) records') (hm : record ∈ records') :
    record.data.is_dnssec = false := by
  by_contra hd
  obtain ⟨r, hr, hk⟩ := (placed_exists h signed_address).mp ⟨record, hm, by simpa using hd⟩
  rw [kept_records, if_pos rfl] at hr
  exact absurd (List.mem_filter.mp hr).2 (by simp only [hk, Bool.false_eq_true, not_false_eq_true])

theorem retained_of_placed
    (h : List.Forall₂ (Placed policy domain lan answers s)
      (kept_records true true records) records') (hm : record ∈ records') :
    retain_ipv4_record record = true := by
  by_contra hd
  obtain ⟨r, hr, hk⟩ := (placed_exists h retain_address).mp ⟨record, hm, by simpa using hd⟩
  rw [kept_records, if_pos rfl] at hr
  have hkeep := (List.mem_filter.mp (List.mem_filter.mp hr).1).2
  rw [hk] at hkeep
  cases hkeep

end

namespace FakeDns

theorem filter_response_changed {restricted rewritten : Bool} {message : Message}
    (h : rewritten = true ∨ restricted = true ∧
      ∃ record ∈ message.answers ++ message.additionals, retain_ipv4_record record = false) :
    filter_response restricted rewritten message =
      ⟨kept_records restricted true message.answers,
        message.name_servers.filter fun record => !record.data.is_dnssec,
        kept_records restricted true message.additionals, false⟩ := by
  have hcond : (rewritten || (restricted && ((retain_ipv4_records message.answers).2 ||
      (retain_ipv4_records message.additionals).2))) = true := by
    rw [Bool.or_eq_true, Bool.and_eq_true, Bool.or_eq_true, retain_ipv4_records_snd,
      retain_ipv4_records_snd]
    refine h.imp_right (And.imp_right ?_)
    simp only [List.mem_append]
    rintro ⟨record, hm | hm, hr⟩
    · exact .inl ⟨record, hm, hr⟩
    · exact .inr ⟨record, hm, hr⟩
  simp only [filter_response]
  rw [if_pos hcond]
  cases restricted <;> rfl

theorem filter_response_same {restricted rewritten : Bool} {message : Message}
    (h : ¬ (rewritten = true ∨ restricted = true ∧
      ∃ record ∈ message.answers ++ message.additionals, retain_ipv4_record record = false)) :
    filter_response restricted rewritten message = message := by
  rw [not_or, not_and] at h
  obtain ⟨hr, hall⟩ := h
  have hr : rewritten = false := by simpa using hr
  subst hr
  cases restricted with
  | false => simp [filter_response]
  | true =>
    have hall := hall rfl
    push Not at hall
    have hkeep : ∀ record ∈ message.answers ++ message.additionals,
        retain_ipv4_record record = true := fun record hm => by simpa using hall record hm
    have ha : message.answers.filter retain_ipv4_record = message.answers :=
      List.filter_eq_self.mpr fun record hm => hkeep record (List.mem_append_left _ hm)
    have hx : message.additionals.filter retain_ipv4_record = message.additionals :=
      List.filter_eq_self.mpr fun record hm => hkeep record (List.mem_append_right _ hm)
    simp [filter_response, retain_ipv4_records, ha, hx]

end FakeDns

/-! ## The leases of a failed rewriting -/

/-- The same lease, perhaps with a later expiry. -/
structure Renewed (l l' : Lease) : Prop where
  domain : l'.domain = l.domain
  mapping : l'.mapping = l.mapping
  expires : l.expires ≤ l'.expires

theorem Renewed.refl (l : Lease) : Renewed l l := ⟨rfl, rfl, le_rfl⟩

theorem renewed_refl (leases : List Lease) : List.Forall₂ Renewed leases leases :=
  List.forall₂_same.mpr fun l _ => .refl l

/-- The leases of `base`, perhaps renewed, and the new ones behind them. -/
structure Grown (base : List Lease) (st : Rewriting) : Prop where
  store : st.store.Inv
  leases : ∃ kept new, st.store.leases = kept ++ new ∧ List.Forall₂ Renewed base kept ∧
    new.map Lease.mapping = st.added

section

variable {base : List Lease} {st : Rewriting} {domain : String} {policy : RoutingPolicy}

/-- The state of the loop after an allocation. -/
def Rewriting.allocated (st : Rewriting) (call : SqlCall) (domain : String) (real : Ipv4Addr)
    (target : RouteTarget) (ttl : ℕ) : Rewriting :=
  match st.store.allocate call.sql call.clock domain real target ttl with
  | (.error _, store) => { st with store }
  | (.ok (mapping, new), store) => ⟨store, if new then st.added ++ [mapping] else st.added⟩

theorem Grown.allocated (h : Grown base st) (call : SqlCall) (domain : String) (real : Ipv4Addr)
    (target : RouteTarget) (ttl : ℕ) :
    Grown base (st.allocated call domain real target ttl) := by
  obtain ⟨hi, ha⟩ := Store.allocate_spec h.store call.sql call.clock domain real target ttl
  obtain ⟨kept, new, hl, hk, hn⟩ := h.leases
  unfold Rewriting.allocated
  rcases he : st.store.allocate call.sql call.clock domain real target ttl with ⟨res, s⟩
  rw [he] at hi ha
  cases ha with
  | failed hs => exact ⟨hi, kept, new, hs.trans hl, hk, hn⟩
  | renewed hmem hkey hs =>
    refine ⟨hi, kept.map (Store.extend (domain, real) (lease_expiry call.clock ttl)),
      new.map (Store.extend (domain, real) (lease_expiry call.clock ttl)), ?_, ?_, ?_⟩
    · rw [← List.map_append, ← hl]
      exact hs
    · refine List.forall₂_map_right_iff.mpr (hk.imp fun l l' hr => ?_)
      refine ⟨?_, by rw [Store.extend_mapping, hr.mapping], hr.expires.trans (Store.le_extend _ _ _)⟩
      exact (congrArg Prod.fst (Store.extend_key _ _ l')).trans hr.domain
    · rw [List.map_map, ← hn]
      exact List.map_congr_left fun l _ => Store.extend_mapping _ _ l
  | @admitted fake _ hfree hnew hs =>
    refine ⟨hi, kept, new ++ [⟨domain, ⟨fake, real, target⟩, lease_expiry call.clock ttl⟩], ?_, hk,
      ?_⟩
    · rw [← List.append_assoc, ← hl]
      exact hs
    · rw [List.map_append, hn]
      rfl

theorem rewrite_record_state [RegexEngine] [Idna] {names : Finset String} {lan : LanContext} (call : SqlCall)
    (record : Record) (st : Rewriting) :
    (rewrite_record domain policy names lan call record st).2 = st ∨ ∃ real,
      (rewrite_record domain policy names lan call record st).2 =
        st.allocated call domain real (policy.target domain real) (clamp_ttl record.ttl) := by
  unfold rewrite_record
  split
  · rename_i real hd
    split
    · refine .inr ⟨real, ?_⟩
      simp only [Rewriting.allocated]
      generalize st.store.allocate call.sql call.clock domain real _ _ = result
      rcases result with ⟨_ | ⟨mapping, new⟩, store⟩ <;> rfl
    · exact .inl rfl
  · exact .inl rfl

theorem rewrite_records_grown [RegexEngine] [Idna] {names : Finset String} {lan : LanContext}
    (h : Grown base st) (calls : ℕ → SqlCall) (records : List Record) :
    Grown base (rewrite_records domain policy names lan calls records st).2 := by
  have hone : ∀ st, Grown base st → ∀ call record,
      Grown base (rewrite_record domain policy names lan call record st).2 := by
    intro st h call record
    rcases @rewrite_record_state domain policy _ _ names lan call record st with he | ⟨real, he⟩ <;> rw [he]
    · exact h
    · exact h.allocated _ _ _ _ _
  induction records generalizing calls st with
  | nil => exact h
  | cons record records ih =>
    have h₁ := hone st h (calls 0) record
    rw [rewrite_records]
    split
    · rename_i e st₁ he
      rwa [he] at h₁
    · rename_i record' rewritten st₁ he
      rw [he] at h₁
      have h₂ := ih h₁ fun n => calls (n + 1)
      split <;> rename_i he' <;> rwa [he'] at h₂

/-- **A rollback leaves the leases that were there before**, at most renewed. -/
theorem rollback_grown (dns : FakeDns) (h : Grown base st) (error : String) :
    List.Forall₂ Renewed base (dns.rollback true error st).2.store.leases := by
  obtain ⟨kept, new, hl, hk, hn⟩ := h.leases
  unfold FakeDns.rollback
  split
  · rename_i he
    rw [List.isEmpty_iff.mp he, List.map_eq_nil_iff] at hn
    show List.Forall₂ Renewed base st.store.leases
    rwa [hl, hn, List.append_nil]
  · have hfakes := h.store.fakes
    rw [hl, List.map_append, List.nodup_append] at hfakes
    have hgone : (st.store.remove_mappings true st.added).2.leases = kept := by
      unfold Store.remove_mappings
      rw [if_pos rfl]
      have hadded : st.added.map FakeMapping.fake = new.map Lease.fake := by
        rw [← hn, List.map_map]
        rfl
      simp only [hl, hadded, List.filter_append]
      rw [List.filter_eq_self.mpr, List.filter_eq_nil_iff.mpr, List.append_nil]
      · intro l hl'
        rw [decide_eq_true_eq, not_not]
        exact List.mem_map_of_mem hl'
      · intro l hl'
        rw [decide_eq_true_eq]
        exact fun hm => hfakes.2.2 _ (List.mem_map_of_mem hl') _ hm rfl
    unfold Store.remove_mappings at hgone ⊢
    rw [if_pos rfl] at hgone ⊢
    exact hgone ▸ hk

end

/-! ## Responses -/

namespace FakeDns

section

variable [RegexEngine] [Idna] {dns dns' : FakeDns} {k k' : Nft.Kernel} {message : Message}
  {domain : String} {policy : RoutingPolicy} {lan : LanContext} {faults : QueryFaults}

theorem rewrite_records_rewritten {message' : Message} {rewritten : Bool}
    (h : dns.rewrite_records k message domain policy lan faults =
      (.ok (message', rewritten), dns', k')) :
    rewritten = true ↔ ∃ record ∈ message.answers ++ message.additionals,
      Relation.ReflTransGen (Aliased message.answers) domain (query_domain record.name) ∧
        ∃ real, record.data = .a real ∧ on_link lan real = false := by
  simp only [FakeDns.rewrite_records] at h
  split at h
  · cases h
  · rename_i answers first st h₁
    split at h
    · cases h
    · rename_i additionals more st' h₂
      split at h
      · cases h
      · cases h
        rw [Bool.or_eq_true, rewrite_records_flag _ _ h₁, rewrite_records_flag _ _ h₂]
        simp only [mem_relevant_names, List.mem_append, or_and_right, exists_or]

/-- **A failed rewriting whose rollback succeeds** has the leases of before. -/
theorem rewrite_records_failed (hs : dns.store.Inv) (hr : faults.rollback = true) {e : String}
    (h : dns.rewrite_records k message domain policy lan faults = (.error e, dns', k')) :
    List.Forall₂ Renewed dns.store.leases dns'.store.leases := by
  have h₀ : Grown dns.store.leases ⟨dns.store, []⟩ :=
    ⟨hs, dns.store.leases, [], (List.append_nil _).symm, renewed_refl _, rfl⟩
  have hback : ∀ (st : Rewriting) (error : String) (k₁ : Nft.Kernel),
      Grown dns.store.leases st →
      ((.error (dns.rollback faults.rollback error st).1, (dns.rollback faults.rollback error st).2,
        k₁) : Except String (Message × Bool) × FakeDns × Nft.Kernel) = (.error e, dns', k') →
      List.Forall₂ Renewed dns.store.leases dns'.store.leases := by
    intro st error k₁ hg he
    rw [hr] at he
    cases he
    exact rollback_grown dns hg error
  have h₁ := @rewrite_records_grown dns.store.leases _ domain policy _ _
    (relevant_names message.answers domain) lan h₀ faults.answers message.answers
  simp only [FakeDns.rewrite_records] at h
  split at h
  · rename_i error st he
    rw [he] at h₁
    exact hback _ _ _ h₁ h
  · rename_i answers first st he
    rw [he] at h₁
    have h₂ := @rewrite_records_grown dns.store.leases _ domain policy _ _
      (relevant_names message.answers domain) lan h₁ faults.additionals message.additionals
    split at h
    · rename_i error st' he'
      rw [he'] at h₂
      exact hback _ _ _ h₂ h
    · rename_i additionals more st' he'
      rw [he'] at h₂
      split at h
      · exact hback _ _ _ h₂ h
      · cases h

omit [RegexEngine] [Idna] in
theorem exists_mem_and_left {α : Type} {l : List α} {p : Prop} {q : α → Prop} :
    (∃ a ∈ l, p ∧ q a) ↔ p ∧ ∃ a ∈ l, q a := by
  simp only [and_left_comm, exists_and_left]

theorem placed_sections (hs : dns.store.Inv) {response : Message}
    (h : dns.rewrite_response k message domain policy lan faults = (.ok response, dns', k')) :
    (Changed dns policy domain lan message →
      response.authentic_data = false ∧
      response.name_servers = message.name_servers.filter (fun record => !record.data.is_dnssec) ∧
      List.Forall₂ (Placed policy domain lan message.answers dns'.store)
        (kept_records (dns.restricted policy domain) true message.answers) response.answers ∧
      List.Forall₂ (Placed policy domain lan message.answers dns'.store)
        (kept_records (dns.restricted policy domain) true message.additionals)
        response.additionals) ∧
    (¬ Changed dns policy domain lan message → response = message) := by
  have hkept : ∀ (s : Store) (records records' : List Record),
      List.Forall₂ (Placed policy domain lan message.answers s) records records' →
      List.Forall₂ (Placed policy domain lan message.answers s)
        (kept_records (dns.restricted policy domain) true records)
        (kept_records (dns.restricted policy domain) true records') := by
    intro s records records' hp
    unfold kept_records
    cases dns.restricted policy domain with
    | false => exact placed_filter hp signed_address
    | true => exact placed_filter (placed_filter hp retain_address) signed_address
  simp only [rewrite_response] at h
  cases ht : (policy.domain_target domain).isSome with
  | false =>
    have hnone : policy.domain_target domain = none := by simpa using ht
    have hno : ∀ record, ¬ Replaceable policy domain lan message.answers record :=
      fun record hr => absurd hr.1 (by simp [ht])
    have hc : Changed dns policy domain lan message ↔ (false = true ∨
        dns.restricted policy domain = true ∧
          ∃ record ∈ message.answers ++ message.additionals, retain_ipv4_record record = false) := by
      simp only [Changed, hno, false_or, Bool.false_eq_true]
      exact exists_mem_and_left
    have hsame : ∀ records : List Record, List.Forall₂
        (Placed policy domain lan message.answers dns.store) records records :=
      fun records => List.forall₂_same.mpr fun record _ => .refl ht _ _
    have hres : dns.restricted policy domain = (dns.vpn_enabled ||
        decide ((none : Option RouteTarget) = some .block) ||
        decide ((none : Option RouteTarget) = some .warp)) := by
      simp [restricted, hnone]
    simp only [hnone, Option.map_none, Option.isSome_none, Bool.false_eq_true, if_false] at h
    rw [← hres] at h
    cases h
    rw [hc]
    refine ⟨fun hch => ?_, filter_response_same⟩
    dsimp only
    rw [filter_response_changed hch]
    exact ⟨rfl, rfl, hkept _ _ _ (hsame _), hkept _ _ _ (hsame _)⟩
  | true =>
    simp only [Option.isSome_map, ht, if_true] at h
    rcases hr : dns.rewrite_records k message domain policy lan faults with ⟨res, dns₁, k₁⟩
    rw [hr] at h
    simp only [Prod.mk.injEq] at h
    obtain ⟨hres, rfl, rfl⟩ := h
    obtain ⟨-, -, -, hrw⟩ := rewrite_records_spec hs hr
    cases hrw with
    | failed hm => cases hres
    | @done answers additionals rewritten install _ _ added hm hk ha hd =>
      have ha := ha.imp fun _ _ hp => hp.placed ht
      have hd := hd.imp fun _ _ hp => hp.placed ht
      have hmoved : (∃ record ∈ answers ++ additionals, retain_ipv4_record record = false) ↔
          ∃ record ∈ message.answers ++ message.additionals, retain_ipv4_record record = false := by
        simp only [List.mem_append, or_and_right, exists_or]
        rw [placed_exists ha retain_address, placed_exists hd retain_address]
      have hc : Changed dns policy domain lan message ↔ (rewritten = true ∨
          dns.restricted policy domain = true ∧
            ∃ record ∈ answers ++ additionals, retain_ipv4_record record = false) := by
        rw [rewrite_records_rewritten hr, hmoved]
        simp only [Changed, Replaceable, ht, true_and, and_or_left, exists_or]
        exact or_congr_right exists_mem_and_left
      change Except.ok (filter_response (dns.restricted policy domain) rewritten
        { message with answers, additionals }) = Except.ok response at hres
      cases hres
      rw [hc]
      constructor
      · intro hch
        rw [filter_response_changed hch]
        exact ⟨rfl, rfl, hkept _ _ _ ha, hkept _ _ _ hd⟩
      · intro hch
        rw [filter_response_same hch]
        -- without a rewritten record both sections are as they were
        have hno : ∀ records records', List.Forall₂
            (Placed policy domain lan message.answers dns₁.store) records records' →
            (∀ record ∈ records, ¬ Replaceable policy domain lan message.answers record) →
            records' = records := by
          intro records records' hp
          induction hp with
          | nil => exact fun _ => rfl
          | cons hp _ ih =>
            intro hno
            rw [hp.2 (hno _ List.mem_cons_self), ih fun r hr => hno r (List.mem_cons_of_mem _ hr)]
        have hnone : ∀ record ∈ message.answers ++ message.additionals,
            ¬ Replaceable policy domain lan message.answers record :=
          fun record hm hrep => hch (hc.mp ⟨record, hm, .inl hrep⟩)
        rw [hno _ _ ha fun r hr => hnone r (List.mem_append_left _ hr),
          hno _ _ hd fun r hr => hnone r (List.mem_append_right _ hr)]

end

end FakeDns

/-- **Answers are rewritten as a whole**: the names that CNAME records lead to, whatever the order of
the records; of a returned answer, every record; and of a failed one, the leases. -/
theorem rewrite_response_complete [RegexEngine] [Idna] :
    (∀ (records : List Record) (domain : String),
      (∃ passes ≤ records.length,
        relevant_names records domain =
          (Closure.pass (records.filterMap cname_edge))^[passes] {domain} ∧
        Closure.pass (records.filterMap cname_edge) (relevant_names records domain) =
          relevant_names records domain) ∧
      (∀ name, name ∈ relevant_names records domain ↔
        Relation.ReflTransGen (Aliased records) domain name) ∧
      ∀ records', records.Perm records' →
        relevant_names records' domain = relevant_names records domain) ∧
    ∀ (dns : FakeDns) (k : Nft.Kernel) (message : Message) (domain : String)
      (policy : RoutingPolicy) (lan : LanContext) (faults : QueryFaults)
      (res : Except String Message) (dns' : FakeDns) (k' : Nft.Kernel), dns.store.Inv →
      dns.rewrite_response k message domain policy lan faults = (res, dns', k') →
      (∀ response, res = .ok response →
        (Changed dns policy domain lan message →
          response.authentic_data = false ∧
          (∀ record ∈ response.answers ++ response.name_servers ++ response.additionals,
            record.data.is_dnssec = false) ∧
          response.name_servers =
            message.name_servers.filter (fun record => !record.data.is_dnssec) ∧
          List.Forall₂ (Placed policy domain lan message.answers dns'.store)
            (kept_records (dns.restricted policy domain) true message.answers) response.answers ∧
          List.Forall₂ (Placed policy domain lan message.answers dns'.store)
            (kept_records (dns.restricted policy domain) true message.additionals)
            response.additionals) ∧
        (¬ Changed dns policy domain lan message → response = message) ∧
        (dns.restricted policy domain = true →
          ∀ record ∈ response.answers ++ response.additionals,
            record.data ≠ .https ∧ record.data ≠ .svcb ∧
              ∀ address, record.data = .aaaa address → local_ipv6 address.toNat = true)) ∧
      ∀ e, res = .error e → faults.rollback = true →
        List.Forall₂ Renewed dns.store.leases dns'.store.leases := by
  refine ⟨fun records domain => ⟨relevant_names_terminates records domain,
    fun name => mem_relevant_names, fun records' h => (relevant_names_perm h domain).symm⟩, ?_⟩
  intro dns k message domain policy lan faults res dns' k' hs h
  refine ⟨?_, ?_⟩
  · rintro response rfl
    obtain ⟨hchanged, hsame⟩ := FakeDns.placed_sections hs h
    refine ⟨fun hc => ?_, hsame, fun hres => ?_⟩
    · obtain ⟨had, hns, ha, hx⟩ := hchanged hc
      refine ⟨had, fun record hm => ?_, hns, ha, hx⟩
      simp only [List.mem_append] at hm
      rcases hm with (hm | hm) | hm
      · exact unsigned_of_placed ha hm
      · rw [hns] at hm
        simpa using (List.mem_filter.mp hm).2
      · exact unsigned_of_placed hx hm
    · by_cases hc : Changed dns policy domain lan message
      · obtain ⟨-, -, ha, hx⟩ := hchanged hc
        rw [hres] at ha hx
        intro record hm
        rcases List.mem_append.mp hm with hm | hm
        · exact retained_ipv4 (retained_of_placed ha hm)
        · exact retained_ipv4 (retained_of_placed hx hm)
      · rw [hsame hc]
        intro record hm
        refine retained_ipv4 ?_
        by_contra hk
        exact hc ⟨record, hm, .inr ⟨hres, by simpa using hk⟩⟩
  · rintro e rfl hr
    simp only [FakeDns.rewrite_response] at h
    split at h
    · rcases hrw : dns.rewrite_records k message domain policy lan faults with ⟨res, dns₁, k₁⟩
      rw [hrw] at h
      simp only [Prod.mk.injEq] at h
      obtain ⟨hres, rfl, rfl⟩ := h
      cases res with
      | ok m => cases hres
      | error e' => exact FakeDns.rewrite_records_failed hs hr hrw
    · cases h

/-! ### An answer that fails half way -/

/-- The store with one lease, for `a.example` at 8.8.8.8. -/
def leasedDns : FakeDns := ⟨sampleStore, true⟩

/-- Two addresses of the blocked name. -/
def twoAddresses : Message :=
  ⟨[⟨"a.example.", 60, .a (Ipv4.addr 8 8 8 8)⟩, ⟨"a.example.", 60, .a sampleHost⟩], [], [], false⟩

/-- SQLite executes the first statement, at time 100, and no other. -/
def oneStatement : QueryFaults :=
  ⟨fun n => ⟨n = 0, 100⟩, fun _ => ⟨false, 100⟩, true, true⟩

theorem sampleStore_inv : sampleStore.Inv :=
  letI := sampleRegex
  have h₀ : Process.Inv (.closed Keyed.empty) := trivial
  Process.run_inv h₀ sampleEvents

/-- Of two addresses, the second one finds SQLite failing. -/
def failedAnswer : Except String Message × FakeDns × Nft.Kernel :=
  letI := sampleRegex
  letI := sampleIdna
  leasedDns.rewrite_response sampleKernel twoAddresses "a.example" blockPolicy sampleLan
    oneStatement

/-- **A failed answer may have renewed a lease**: the lease of the first address expires later than
before, and the rollback does not set it back. -/
theorem failed_answer_renews :
    leasedDns.store.Inv ∧ oneStatement.rollback = true ∧ failedAnswer.1 = .error SQL_ERROR ∧
      leasedDns.store.leases.map Lease.expires = [370] ∧
      failedAnswer.2.1.store.leases.map Lease.expires = [460] :=
  ⟨sampleStore_inv, rfl, by decide +kernel, by decide +kernel, by decide +kernel⟩

/-- `rewrite_response_complete` for this answer: the lease is the one of before, but for its
expiry. -/
theorem rewrite_response_complete_sample :
    List.Forall₂ Renewed leasedDns.store.leases failedAnswer.2.1.store.leases := by
  have hrun : failedAnswer = (.error SQL_ERROR, failedAnswer.2.1, failedAnswer.2.2) :=
    Prod.ext (by decide +kernel) rfl
  have hspec := (@rewrite_response_complete sampleRegex sampleIdna).2 leasedDns sampleKernel
    twoAddresses "a.example" blockPolicy sampleLan oneStatement (.error SQL_ERROR) failedAnswer.2.1
    failedAnswer.2.2 sampleStore_inv hrun
  exact hspec.2 SQL_ERROR rfl rfl

end Gofro.Agent

import GofroRouter.Agent.FakeDns.Store

/-!
# Runs of the lease store

The store over the life of several processes: opening, allocation, expiry and reclassification, each
at some time of the clock and with any SQLite failure. Between two processes only the table is left.

* `Process.step_inv`, `run_inv`: the representation invariant in every reachable state.
* `Process.step_keeps`, `run_keeps`: a lease stays until its grace period is over.
* **`store_lifetime`**: what holds of the store in every run.
-/

namespace Gofro.Agent

open Geodata (RegexEngine)

/-- The store of a running process, or the table between two processes. -/
inductive Process
  | closed (db : Database)
  | running (s : Store)

/-- The table survives the process. -/
def Process.database : Process → Database
  | .closed db => db
  | .running s => s.connection

/-- What is done with the store. -/
inductive StoreOp
  | reopen (max_leases : ℕ) (sql : Store.OpenFaults)
  | allocate (sql : Bool) (domain : String) (real : Ipv4Addr) (target : RouteTarget) (ttl : ℕ)
  /-- `expired_at`, then `remove_mappings` -/
  | purge (sql : Bool)
  | commit_targets (sql : Bool) (policy : RoutingPolicy)

/-- An operation and the time at which it reads the clock. -/
structure StoreEvent where
  clock : ℤ
  op : StoreOp

/-- The leases that have expired, and their removal. -/
def Store.purge (s : Store) (sql : Bool) (clock : ℤ) : Store :=
  match s.expired clock with
  | .error _ => s
  | .ok mappings => (s.remove_mappings sql mappings).2

theorem Store.purge_inv {s : Store} (h : s.Inv) (sql : Bool) (clock : ℤ) :
    (s.purge sql clock).Inv := by
  unfold Store.purge
  split
  · exact h
  · exact Store.remove_mappings_inv h _ _

namespace Process

/-- The invariant of the store, while one is open. -/
def Inv : Process → Prop
  | .closed _ => True
  | .running s => s.Inv

/-- A row maps the fake address to the pair, at least until `expires`. -/
def Keeps (fake : Ipv4Addr) (domain : String) (real : Ipv4Addr) (expires : ℤ) (p : Process) :
    Prop :=
  ∃ r ∈ p.database, r.fake = ipv4_to_sql fake ∧ r.domain = domain ∧ r.real = ipv4_to_sql real ∧
    expires ≤ r.expires

section

variable {fake : Ipv4Addr} {domain : String} {real : Ipv4Addr} {expires : ℤ} {s s' : Store}

theorem keeps_running (h : s.Inv) : Keeps fake domain real expires (.running s) ↔
    ∃ l ∈ s.leases, l.mapping.fake = fake ∧ l.key = (domain, real) ∧ expires ≤ l.expires := by
  constructor
  · rintro ⟨r, hr, hf, hd, hreal, he⟩
    obtain ⟨l, hl, rfl⟩ := (h.rows r).mp hr
    exact ⟨l, hl, ipv4_to_sql_inj.mp hf, Prod.ext hd (ipv4_to_sql_inj.mp hreal), he⟩
  · rintro ⟨l, hl, rfl, hk, he⟩
    obtain ⟨rfl, rfl⟩ := Prod.mk.inj hk
    exact ⟨l.row, (h.rows _).mpr ⟨l, hl, rfl⟩, rfl, rfl, rfl, he⟩

theorem Keeps.step (h : s.Inv) (h' : s'.Inv)
    (hl : ∀ l ∈ s.leases, expires ≤ l.expires → ∃ l' ∈ s'.leases,
      l'.mapping.fake = l.mapping.fake ∧ l'.key = l.key ∧ l.expires ≤ l'.expires)
    (hk : Keeps fake domain real expires (.running s)) :
    Keeps fake domain real expires (.running s') := by
  obtain ⟨l, hmem, hf, hkey, he⟩ := (keeps_running h).mp hk
  obtain ⟨l', hmem', hf', hkey', he'⟩ := hl l hmem he
  exact (keeps_running h').mpr ⟨l', hmem', hf'.trans hf, hkey'.trans hkey, he.trans he'⟩

theorem cutoff_lt {now : ℤ} (hn : now < expires + CONNECTION_GRACE_SECONDS)
    (hpos : 0 ≤ expires) : expiry_cutoff now < expires := by
  unfold expiry_cutoff
  rw [max_lt_iff]
  constructor <;> omega

theorem open_database (db : Database) (max_leases : ℕ) (sql : Store.OpenFaults) (clock : ℤ) :
    (Store.open_with_limits db max_leases sql clock).2 = db ∨
      (Store.open_with_limits db max_leases sql clock).2 =
        db.delete_expired (expiry_cutoff clock) := by
  simp only [Store.open_with_limits]
  split
  · exact .inl rfl
  · split
    · exact .inl rfl
    · rename_i now hnow
      obtain ⟨rfl, -, -⟩ := Store.unix_time_eq hnow
      split
      · exact .inl rfl
      · split
        · exact .inr rfl
        · exact .inr rfl

theorem purge_leases {clock : ℤ} (h : s.Inv) (sql : Bool)
    (hcut : expiry_cutoff clock < expires) :
    ∀ l ∈ s.leases, expires ≤ l.expires → l ∈ (s.purge sql clock).leases := by
  intro l hl he
  unfold Store.purge Store.expired
  cases hnow : unix_time clock with
  | error e => exact hl
  | ok now =>
    obtain ⟨rfl, -, -⟩ := Store.unix_time_eq hnow
    show l ∈ (s.remove_mappings sql (s.expired_at now)).2.leases
    unfold Store.remove_mappings
    split_ifs
    · refine List.mem_filter.mpr ⟨hl, decide_eq_true fun hmem => ?_⟩
      -- a removed lease with this fake address is this lease, which has not expired
      obtain ⟨m, hm, hfake⟩ := List.mem_map.mp hmem
      obtain ⟨l', hl', rfl⟩ := List.mem_map.mp hm
      obtain ⟨hl', hexp⟩ := List.mem_filter.mp hl'
      rw [h.eq_of_fake hl' hl hfake, decide_eq_true_eq] at hexp
      omega
    · exact hl

end

theorem allocate_keeps {s : Store} (h : s.Inv) (sql : Bool) (clock : ℤ) (domain : String)
    (real : Ipv4Addr) (target : RouteTarget) (ttl : ℕ) :
    ∀ l ∈ s.leases, ∃ l' ∈ (s.allocate sql clock domain real target ttl).2.leases,
      l'.mapping = l.mapping ∧ l'.key = l.key ∧ l.expires ≤ l'.expires := by
  intro l hl
  obtain ⟨-, ha⟩ := Store.allocate_spec h sql clock domain real target ttl
  generalize (s.allocate sql clock domain real target ttl).1 = res at ha
  cases ha with
  | failed hs => rw [hs]; exact ⟨l, hl, rfl, rfl, le_rfl⟩
  | renewed hl' hk hs =>
    rw [hs]
    exact ⟨_, List.mem_map_of_mem hl, Store.extend_mapping _ _ _, Store.extend_key _ _ _,
      Store.le_extend _ _ _⟩
  | admitted hfree hnew hs =>
    rw [hs]
    exact ⟨l, List.mem_append_left _ hl, rfl, rfl, le_rfl⟩

theorem keeps_of_allocate {s : Store} (h : s.Inv) {sql : Bool} {clock : ℤ} {domain : String}
    {real : Ipv4Addr} {target : RouteTarget} {ttl : ℕ} {m : FakeMapping} {new : Bool}
    (ha : (s.allocate sql clock domain real target ttl).1 = .ok (m, new)) :
    Keeps m.fake domain real (lease_expiry clock ttl)
      (.running (s.allocate sql clock domain real target ttl).2) := by
  obtain ⟨hinv, hspec⟩ := Store.allocate_spec h sql clock domain real target ttl
  rw [ha] at hspec
  rw [keeps_running hinv]
  cases hspec with
  | renewed hl hk hs =>
    rw [hs]
    refine ⟨_, List.mem_map_of_mem hl, by rw [Store.extend_mapping], by rw [Store.extend_key, hk], ?_⟩
    rw [Store.extend, if_pos hk]
    exact le_max_right _ _
  | admitted hfree hnew hs =>
    rw [hs]
    exact ⟨_, List.mem_append_right _ (List.mem_singleton_self _), rfl, rfl, le_rfl⟩

theorem clock_of_allocate {s : Store} {sql : Bool} {clock : ℤ} {domain : String} {real : Ipv4Addr}
    {target : RouteTarget} {ttl : ℕ} {res : FakeMapping × Bool}
    (ha : (s.allocate sql clock domain real target ttl).1 = .ok res) : 0 ≤ clock := by
  unfold Store.allocate at ha
  split at ha
  · cases ha
  · rename_i now hnow
    exact (Store.unix_time_eq hnow).2.1

variable [RegexEngine]

/-- The operations of a closed store are those of the next one that opens. -/
def step (p : Process) (e : StoreEvent) : Process :=
  match e.op, p with
  | .reopen max_leases sql, p =>
    match Store.open_with_limits p.database max_leases sql e.clock with
    | (.ok s, _) => .running s
    | (.error _, db) => .closed db
  | .allocate sql domain real target ttl, .running s =>
    .running (s.allocate sql e.clock domain real target ttl).2
  | .purge sql, .running s => .running (s.purge sql e.clock)
  | .commit_targets sql policy, .running s => .running (s.commit_targets sql policy).2
  | _, .closed db => .closed db

def run (p : Process) (events : List StoreEvent) : Process := events.foldl step p

/-- **Every operation keeps the invariant.** -/
theorem step_inv {p : Process} (h : p.Inv) (e : StoreEvent) : (p.step e).Inv := by
  unfold step
  split
  · split
    · rename_i s db ho
      exact (Store.open_inv ho).1
    · trivial
  · exact (Store.allocate_spec h _ _ _ _ _ _).1
  · exact Store.purge_inv h _ _
  · exact Store.commit_targets_inv h _ _
  · trivial

theorem run_inv {p : Process} (h : p.Inv) (events : List StoreEvent) : (p.run events).Inv := by
  induction events generalizing p with
  | nil => exact h
  | cons e events ih => exact ih (step_inv h e)

/-! ## Lifetime -/

section

variable {fake : Ipv4Addr} {domain : String} {real : Ipv4Addr} {expires : ℤ}

/-- **A lease survives every operation** until its grace period is over. -/
theorem step_keeps {p : Process} (h : p.Inv) (hk : p.Keeps fake domain real expires)
    {e : StoreEvent} (hpos : 0 ≤ expires)
    (he : e.clock < expires + CONNECTION_GRACE_SECONDS) :
    (p.step e).Keeps fake domain real expires := by
  obtain ⟨clock, op⟩ := e
  have hcut : expiry_cutoff clock < expires := cutoff_lt he hpos
  cases op with
  | reopen max_leases sql =>
    have hdb : ∃ r ∈ (Store.open_with_limits p.database max_leases sql clock).2,
        r.fake = ipv4_to_sql fake ∧ r.domain = domain ∧ r.real = ipv4_to_sql real ∧
          expires ≤ r.expires := by
      obtain ⟨r, hr, hf, hd, hreal, hexp⟩ := hk
      rcases open_database p.database max_leases sql clock with ho | ho
      · rw [ho]; exact ⟨r, hr, hf, hd, hreal, hexp⟩
      · rw [ho]
        refine ⟨r, Keyed.mem_delete.mpr ⟨hr, decide_eq_false ?_⟩, hf, hd, hreal, hexp⟩
        omega
    simp only [step]
    split
    · rename_i s db ho
      rw [ho] at hdb
      rw [Keeps, database, (Store.open_inv ho).2.1]
      exact hdb
    · rename_i err db ho
      rw [ho] at hdb
      exact hdb
  | allocate sql domain' real' target ttl =>
    cases p with
    | closed db => exact hk
    | running s =>
      refine Keeps.step h (Store.allocate_spec h _ _ _ _ _ _).1 (fun l hl _ => ?_) hk
      obtain ⟨l', hl', hm, hkey, hle⟩ := allocate_keeps h sql clock domain' real' target ttl l hl
      exact ⟨l', hl', by rw [hm], hkey, hle⟩
  | purge sql =>
    cases p with
    | closed db => exact hk
    | running s =>
      exact Keeps.step h (Store.purge_inv h _ _)
        (fun l hl hexp => ⟨l, purge_leases h sql hcut l hl hexp, rfl, rfl, le_rfl⟩) hk
  | commit_targets sql policy =>
    cases p with
    | closed db => exact hk
    | running s =>
      refine Keeps.step h (Store.commit_targets_inv h _ _) (fun l hl _ => ?_) hk
      unfold Store.commit_targets
      split_ifs
      · exact ⟨_, List.mem_map_of_mem hl, rfl, rfl, le_rfl⟩
      · exact ⟨l, hl, rfl, rfl, le_rfl⟩

theorem run_keeps {p : Process} (h : p.Inv) (hk : p.Keeps fake domain real expires)
    {events : List StoreEvent} (hpos : 0 ≤ expires)
    (he : ∀ e ∈ events, e.clock < expires + CONNECTION_GRACE_SECONDS) :
    (p.run events).Keeps fake domain real expires := by
  induction events generalizing p with
  | nil => exact hk
  | cons e events ih =>
    exact ih (step_inv h e) (step_keeps h hk hpos (he e List.mem_cons_self))
      fun e' he' => he e' (List.mem_cons_of_mem _ he')

end

end Process

/-- A fake address belongs to a pair, and to nothing else. -/
def Store.Maps (s : Store) (fake : Ipv4Addr) (domain : String) (real : Ipv4Addr) : Prop :=
  (∃ l ∈ s.leases, l.domain = domain ∧ l.mapping.real = real ∧ l.mapping.fake = fake) ∧
    ∀ l ∈ s.leases, l.mapping.fake = fake → l.domain = domain ∧ l.mapping.real = real

/-- **The lease store in every run**, from any table, with any SQLite failures: its representation;
renewal, which never shortens a lease and needs no capacity; when a new pair is admitted; and how
long an answered fake address keeps its meaning. -/
theorem store_lifetime [RegexEngine] (db : Database) (events : List StoreEvent) {s : Store}
    (hrun : (Process.closed db).run events = .running s) :
    ((s.leases.map Lease.fake).Nodup ∧ s.used = (s.leases.map Lease.fake).toFinset ∧
      (∀ l ∈ s.leases, FIRST_FAKE ≤ l.mapping.fake ∧ l.mapping.fake ≤ LAST_FAKE ∧
        l.mapping.fake ≠ PANEL_VIRTUAL_IP) ∧
      (FIRST_FAKE.toNat ≤ s.next ∧ s.next ≤ LAST_FAKE.toNat) ∧
      (s.leases.map Lease.key).Nodup) ∧
    (∀ l ∈ s.leases, ∀ sql clock target ttl,
      (∃ l' ∈ (s.allocate sql clock l.domain l.mapping.real target ttl).2.leases,
        l'.mapping = l.mapping ∧ l'.key = l.key ∧ l.expires ≤ l'.expires) ∧
      (sql = true → unix_time clock = .ok clock →
        (s.allocate sql clock l.domain l.mapping.real target ttl).1 = .ok (l.mapping, false))) ∧
    (∀ domain real, (∀ l ∈ s.leases, l.key ≠ (domain, real)) →
      ∀ clock, unix_time clock = .ok clock → ∀ target ttl,
        ((∃ res, (s.allocate true clock domain real target ttl).1 = .ok res) ↔
          s.leases.length < s.max_leases ∧
            ∃ a, FIRST_FAKE ≤ a ∧ a ≤ LAST_FAKE ∧ ∀ l ∈ s.leases, l.mapping.fake ≠ a)) ∧
    (∀ sql clock domain real target ttl m new,
      (s.allocate sql clock domain real target ttl).1 = .ok (m, new) →
      ∀ later, (∀ e ∈ later, e.clock < clock + clamp_ttl ttl + 300 + 86400) →
      ∀ s', (Process.running (s.allocate sql clock domain real target ttl).2).run later =
          .running s' → s'.Maps m.fake domain real) := by
  have hinv : s.Inv := by
    have h₀ : Process.Inv (.closed db) := trivial
    have h := Process.run_inv h₀ events
    rwa [hrun] at h
  refine ⟨⟨hinv.fakes, hinv.used, fun l hl => ?_, hinv.next, hinv.keys⟩, ?_, ?_, ?_⟩
  · have hp := hinv.pool l hl
    exact ⟨hp.1, hp.2, hp.ne_panel⟩
  · intro l hl sql clock target ttl
    refine ⟨Process.allocate_keeps hinv sql clock _ _ target ttl l hl, ?_⟩
    rintro rfl hc
    exact Store.allocate_found hinv hc hl target ttl
  · intro domain real hnew clock hc target ttl
    rw [Store.allocate_new_iff hinv hc hnew]
    refine and_congr_right fun _ => exists_congr fun a => ?_
    rw [Store.mem_used hinv, InPool, and_assoc]
    push Not
    rfl
  · intro sql clock domain real target ttl m new ha later hlater s' hs'
    have hstart : Process.Inv (.running (s.allocate sql clock domain real target ttl).2) :=
      (Store.allocate_spec hinv sql clock domain real target ttl).1
    have hpos : 0 ≤ lease_expiry clock ttl := by
      have := Process.clock_of_allocate ha
      unfold lease_expiry
      omega
    have hkeeps := Process.run_keeps hstart (Process.keeps_of_allocate hinv ha) hpos hlater
    have hinv' : Process.Inv (.running s') := hs' ▸ Process.run_inv hstart later
    rw [hs', Process.keeps_running hinv'] at hkeeps
    obtain ⟨l, hl, hf, hk, -⟩ := hkeeps
    obtain ⟨rfl, rfl⟩ := Prod.mk.inj hk
    refine ⟨⟨l, hl, rfl, rfl, hf⟩, fun l' hl' hf' => ?_⟩
    rw [hinv'.eq_of_fake hl' hl (hf'.trans hf.symm)]
    exact ⟨rfl, rfl⟩

/-! ### A table with one lease -/

/-- One lease, ten seconds after the start of the clock. -/
def sampleLease : Lease := ⟨"a.example", ⟨FIRST_FAKE, Ipv4.addr 8 8 8 8, .vpn⟩, 370⟩

def sampleEvents : List StoreEvent :=
  [⟨0, .reopen 8192 ⟨true, true, true⟩⟩,
    ⟨10, .allocate true "a.example" (Ipv4.addr 8 8 8 8) .vpn 60⟩]

def sampleStore : Store where
  connection := ⟨[sampleLease.row], List.nodup_singleton _, List.nodup_singleton _⟩
  leases := [sampleLease]
  used := {FIRST_FAKE}
  next := FIRST_FAKE.toNat + 1
  max_leases := 8192

/-- `store_lifetime` for a store with one lease: the next query renews it. -/
theorem store_lifetime_sample :
    (sampleStore.allocate true 100 "a.example" (Ipv4.addr 8 8 8 8) .vpn 60).1 =
      .ok (sampleLease.mapping, false) :=
  letI : RegexEngine := ⟨fun _ => true, fun _ _ => false⟩
  ((@store_lifetime _ Keyed.empty sampleEvents sampleStore rfl).2.1 sampleLease
    (List.mem_singleton_self _) true 100 .vpn 60).2 rfl rfl

end Gofro.Agent

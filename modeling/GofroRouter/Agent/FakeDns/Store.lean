import GofroRouter.Agent.Dataplane.Table
import GofroRouter.Lib.Keyed

/-!
# The lease store

`store.rs`: leases of fake addresses, in memory and in an SQLite table. A lease belongs to a domain
and one of its real addresses. Whether SQLite executes a statement is decided outside; a statement
or transaction that fails leaves the table as it is.

* `Store.Inv`: distinct fakes and keys, fakes in the pool, `used` and the table in step with memory.
* `Store.allocate_inv`, `remove_mappings_inv`, `commit_targets_inv`, `open_inv`: it is kept.
* `Store.allocate_new_iff`: when a new pair gets a lease. `Store.allocate_found`: renewal.
-/

namespace Gofro.Agent

open Geodata (RegexEngine)

/-- DNS TTLs are shorter than connections. -/
def CONNECTION_GRACE_SECONDS : ℤ := 24 * 60 * 60

/-! ## The table -/

/-- A row of `fake_dns`. -/
structure Row where
  fake : ℤ
  domain : String
  real : ℤ
  target : ℤ
  expires : ℤ
deriving DecidableEq

/-- `UPDATE … SET expires_at` on one row. -/
def Row.set_expires (r : Row) (fake expires : ℤ) : Row :=
  if r.fake = fake then { r with expires } else r

/-- `UPDATE … SET target` on one row. -/
def Row.set_target (r : Row) (fake target : ℤ) : Row :=
  if r.fake = fake then { r with target } else r

@[simp] theorem Row.set_expires_fake (r : Row) (fake expires : ℤ) :
    (r.set_expires fake expires).fake = r.fake := by unfold Row.set_expires; split_ifs <;> rfl

@[simp] theorem Row.set_target_fake (r : Row) (fake target : ℤ) :
    (r.set_target fake target).fake = r.fake := by unfold Row.set_target; split_ifs <;> rfl

/-- `fake` is the primary key, and `(domain, real)` is unique. -/
abbrev Database := Keyed Row.fake fun r => (r.domain, r.real)

namespace Database

/-- `UPDATE fake_dns SET expires = … WHERE fake = …` -/
def set_expires (db : Database) (fake expires : ℤ) : Database :=
  db.update (fun r => r.set_expires fake expires) (fun r => r.set_expires_fake fake expires)
    (fun r => by unfold Row.set_expires; split_ifs <;> rfl)

/-- `UPDATE fake_dns SET target = … WHERE fake = …` -/
def set_target (db : Database) (fake target : ℤ) : Database :=
  db.update (fun r => r.set_target fake target) (fun r => r.set_target_fake fake target)
    (fun r => by unfold Row.set_target; split_ifs <;> rfl)

/-- `DELETE FROM fake_dns WHERE fake = …` -/
def delete_fake (db : Database) (fake : ℤ) : Database := db.delete fun r => r.fake = fake

/-- `DELETE FROM fake_dns WHERE expires <= …` -/
def delete_expired (db : Database) (cutoff : ℤ) : Database := db.delete fun r => r.expires ≤ cutoff

end Database

/-- Targets as they are stored. -/
def target_code : RouteTarget → ℤ
  | .direct => 1
  | .vpn => 2
  | .block => 3
  | .warp => 4

/-- Other codes are refused. -/
def target_from_code (code : ℤ) : Except String RouteTarget :=
  if code = 1 then .ok .direct
  else if code = 2 then .ok .vpn
  else if code = 3 then .ok .block
  else if code = 4 then .ok .warp
  else .error ("invalid persisted route target " ++ toString code)

/-- Addresses as they are stored. -/
def ipv4_to_sql (ip : Ipv4Addr) : ℤ := ip.toNat

/-- A number out of range is refused. -/
def ipv4_from_sql (value : ℤ) : Except String Ipv4Addr :=
  if 0 ≤ value ∧ value < 2 ^ 32 then .ok (BitVec.ofNat 32 value.toNat)
  else .error "out of range integral type conversion attempted"

/-! ## Leases -/

/-- A lease with the domain of its key; the other half of the key is `mapping.real`. -/
structure Lease where
  domain : String
  mapping : FakeMapping
  expires : ℤ
deriving DecidableEq

/-- A name has one lease for each real address. -/
def Lease.key (l : Lease) : String × Ipv4Addr := (l.domain, l.mapping.real)

def Lease.fake (l : Lease) : Ipv4Addr := l.mapping.fake

/-- A lease as it is stored. -/
def Lease.row (l : Lease) : Row :=
  ⟨ipv4_to_sql l.mapping.fake, l.domain, ipv4_to_sql l.mapping.real, target_code l.mapping.target,
    l.expires⟩

/-- A row read back. -/
def Row.lease (r : Row) : Except String Lease := do
  let fake ← ipv4_from_sql r.fake
  let real ← ipv4_from_sql r.real
  let target ← target_from_code r.target
  return ⟨r.domain, ⟨fake, real, target⟩, r.expires⟩

/-- The leases in memory, beside the table. -/
structure Store where
  connection : Database
  leases : List Lease
  used : Finset Ipv4Addr
  next : ℕ
  max_leases : ℕ

def SQL_ERROR : String := "SQLite failure"

def I64_MAX : ℤ := 2 ^ 63 - 1

/-- The clock in whole seconds. -/
def unix_time (clock : ℤ) : Except String ℤ :=
  if clock < 0 then .error "system clock is before Unix epoch"
  else if I64_MAX < clock then .error "Unix time exceeds SQLite integer range"
  else .ok clock

/-- `now.saturating_sub(CONNECTION_GRACE_SECONDS)` -/
def expiry_cutoff (now : ℤ) : ℤ := max (now - CONNECTION_GRACE_SECONDS) (-2 ^ 63)

/-- Between half a minute and an hour. -/
def clamp_ttl (ttl : ℕ) : ℕ := max 30 (min ttl 3600)

/-- The expiry of a lease answered at `now`. -/
def lease_expiry (now : ℤ) (ttl : ℕ) : ℤ := now + clamp_ttl ttl + 300

namespace Store

/-! ## Opening -/

/-- Which steps of opening SQLite executes. -/
structure OpenFaults where
  setup : Bool
  delete : Bool
  select : Bool

/-- A stored address may be out of the pool. -/
def check_pool (l : Lease) : Except String Unit :=
  bail_if (!(FIRST_FAKE ≤ l.mapping.fake && l.mapping.fake ≤ LAST_FAKE))
    ("persisted fake IP " ++ String.ofList (Ipv4.Net.dotted l.mapping.fake) ++
      " is outside the allocation pool")

/-- The store over the rows that are left. -/
def load (db : Database) (max_leases : ℕ) : Except String Store := do
  let leases ← db.rows.mapM Row.lease
  leases.forM check_pool
  return ⟨db, leases, (leases.map Lease.fake).toFinset, FIRST_FAKE.toNat, max_leases⟩

/-- `from_connection_with_limits`: the store, if it opens, and the table. -/
def open_with_limits (db : Database) (max_leases : ℕ) (sql : OpenFaults) (clock : ℤ) :
    Except String Store × Database :=
  if !sql.setup then (.error SQL_ERROR, db)
  else match unix_time clock with
    | .error e => (.error e, db)
    | .ok now =>
      if !sql.delete then (.error SQL_ERROR, db)
      else
        let db := db.delete_expired (expiry_cutoff now)
        if !sql.select then (.error SQL_ERROR, db) else (load db max_leases, db)

/-! ## Operations -/

section

variable (s : Store)

/-- The leases with the targets of a policy. -/
def reclassified [RegexEngine] (policy : RoutingPolicy) : List FakeMapping :=
  s.leases.map fun l => { l.mapping with target := policy.target l.domain l.mapping.real }

/-- The lease with its target under a policy. -/
def retarget [RegexEngine] (policy : RoutingPolicy) (l : Lease) : Lease :=
  { l with mapping := { l.mapping with target := policy.target l.domain l.mapping.real } }

/-- One `UPDATE` for each lease, in one transaction. -/
def commit_targets [RegexEngine] (sql : Bool) (policy : RoutingPolicy) :
    Except String Unit × Store :=
  if sql then
    (.ok (), { s with
      connection := s.leases.foldl (fun db l => db.set_target (ipv4_to_sql l.mapping.fake)
        (target_code (policy.target l.domain l.mapping.real))) s.connection
      leases := s.leases.map (retarget policy) })
  else (.error SQL_ERROR, s)

/-- The mappings whose grace period is over. -/
def expired_at (now : ℤ) : List FakeMapping :=
  (s.leases.filter fun l => l.expires ≤ expiry_cutoff now).map Lease.mapping

/-- The clock may fail. -/
def expired (clock : ℤ) : Except String (List FakeMapping) := do
  return s.expired_at (← unix_time clock)

/-- A later expiry is written through; an earlier one is ignored. -/
def renew (sql : Bool) (lease : Lease) (expires : ℤ) : Except String (FakeMapping × Bool) × Store :=
  if lease.expires < expires then
    if sql then
      (.ok (lease.mapping, false), { s with
        connection := s.connection.set_expires (ipv4_to_sql lease.mapping.fake) expires
        leases := s.leases.map fun l => if l.key = lease.key then { l with expires } else l })
    else (.error SQL_ERROR, s)
  else (.ok (lease.mapping, false), s)

/-- How many fake addresses there are. -/
def POOL_SIZE : ℕ := LAST_FAKE.toNat - FIRST_FAKE.toNat + 1

/-- The fake address at an offset from the cursor, around the pool. -/
def candidate (next offset : ℕ) : Ipv4Addr :=
  BitVec.ofNat 32 (FIRST_FAKE.toNat + (next - FIRST_FAKE.toNat + offset) % POOL_SIZE)

/-- The first unused candidate from `offset` on, among the next `remaining` ones. -/
def first_free (used : Finset Ipv4Addr) (next : ℕ) : ℕ → ℕ → Option Ipv4Addr
  | 0, _ => none
  | remaining + 1, offset =>
    if candidate next offset ∉ used then some (candidate next offset)
    else first_free used next remaining (offset + 1)

/-- A lease for a new pair; the cursor moves on even if SQLite refuses the row. -/
def insert_new (sql : Bool) (domain : String) (real : Ipv4Addr) (target : RouteTarget) (expires : ℤ) :
    Except String (FakeMapping × Bool) × Store :=
  if s.max_leases ≤ s.leases.length then
    (.error ("лимит FakeDNS " ++ toString s.max_leases ++ " записей достигнут"), s)
  else match first_free s.used s.next POOL_SIZE 0 with
    | none => (.error "пул FakeDNS 198.18.0.0/15 исчерпан", s)
    | some fake =>
      let s := { s with
        next := if fake = LAST_FAKE then FIRST_FAKE.toNat else fake.toNat + 1 }
      let lease : Lease := ⟨domain, ⟨fake, real, target⟩, expires⟩
      match if sql then s.connection.insert? lease.row else none with
      | none => (.error SQL_ERROR, s)
      | some connection =>
        (.ok (lease.mapping, true), { s with
          connection, used := insert fake s.used, leases := s.leases ++ [lease] })

/-- The lease of a name and an address: renewed if it is there, or a new one. -/
def allocate (sql : Bool) (clock : ℤ) (domain : String) (real : Ipv4Addr) (target : RouteTarget)
    (ttl : ℕ) : Except String (FakeMapping × Bool) × Store :=
  match unix_time clock with
  | .error e => (.error e, s)
  | .ok now =>
    match s.leases.find? fun l => l.key = (domain, real) with
    | some lease => s.renew sql lease (lease_expiry now ttl)
    | none => s.insert_new sql domain real target (lease_expiry now ttl)

/-- One `DELETE` for each mapping, in one transaction. -/
def remove_mappings (sql : Bool) (mappings : List FakeMapping) : Except String Unit × Store :=
  if sql then
    (.ok (), { s with
      connection := mappings.foldl (fun db m => db.delete_fake (ipv4_to_sql m.fake)) s.connection
      used := s.used.filter fun a => a ∉ mappings.map FakeMapping.fake
      leases := s.leases.filter fun l => l.mapping.fake ∉ mappings.map FakeMapping.fake })
  else (.error SQL_ERROR, s)

end

end Store

/-! ## Rows and leases -/

theorem ipv4_to_sql_inj {a b : Ipv4Addr} : ipv4_to_sql a = ipv4_to_sql b ↔ a = b := by
  rw [ipv4_to_sql, ipv4_to_sql, Int.natCast_inj, BitVec.toNat_inj]

theorem ipv4_to_sql_of_from {value : ℤ} {a : Ipv4Addr} (h : ipv4_from_sql value = .ok a) :
    ipv4_to_sql a = value := by
  unfold ipv4_from_sql at h
  split_ifs at h with hv
  cases h
  rw [ipv4_to_sql, BitVec.toNat_ofNat, Nat.mod_eq_of_lt (by omega)]
  omega

theorem target_code_of_from {code : ℤ} {target : RouteTarget}
    (h : target_from_code code = .ok target) : target_code target = code := by
  unfold target_from_code at h
  split_ifs at h with h₁ h₂ h₃ h₄ <;> cases h <;> simp [target_code, *]

/-- **A row that is read back as a lease is the row of that lease.** -/
theorem Row.row_of_lease {r : Row} {l : Lease} (h : r.lease = .ok l) : l.row = r := by
  simp only [Row.lease, bind_eq_ok] at h
  obtain ⟨fake, hf, real, hr, target, ht, he⟩ := h
  cases he
  simp only [Lease.row, ipv4_to_sql_of_from hf, ipv4_to_sql_of_from hr, target_code_of_from ht]

theorem FIRST_FAKE_toNat : FIRST_FAKE.toNat = 3323068417 := by decide +kernel
theorem LAST_FAKE_toNat : LAST_FAKE.toNat = 3323199486 := by decide +kernel
theorem POOL_SIZE_eq : Store.POOL_SIZE = 131070 := by
  rw [Store.POOL_SIZE, FIRST_FAKE_toNat, LAST_FAKE_toNat]

/-- The addresses that a lease may have. -/
def InPool (a : Ipv4Addr) : Prop := FIRST_FAKE ≤ a ∧ a ≤ LAST_FAKE

theorem inPool_iff {a : Ipv4Addr} : InPool a ↔ 3323068417 ≤ a.toNat ∧ a.toNat ≤ 3323199486 := by
  rw [InPool, BitVec.le_def, BitVec.le_def, FIRST_FAKE_toNat, LAST_FAKE_toNat]

theorem InPool.ne_panel {a : Ipv4Addr} (h : InPool a) : a ≠ PANEL_VIRTUAL_IP := by
  rintro rfl
  have hp : PANEL_VIRTUAL_IP.toNat = 3323068416 := by decide +kernel
  rw [inPool_iff, hp] at h
  omega

/-! ## The invariant -/

namespace Store

/-- **The representation of the leases**: in memory, in the set of used addresses and in the table. -/
structure Inv (s : Store) : Prop where
  keys : (s.leases.map Lease.key).Nodup
  fakes : (s.leases.map Lease.fake).Nodup
  pool : ∀ l ∈ s.leases, InPool l.mapping.fake
  used : s.used = (s.leases.map Lease.fake).toFinset
  next : FIRST_FAKE.toNat ≤ s.next ∧ s.next ≤ LAST_FAKE.toNat
  rows : ∀ r, r ∈ s.connection ↔ ∃ l ∈ s.leases, l.row = r

theorem Inv.eq_of_fake {s : Store} (h : s.Inv) {l l' : Lease} (hl : l ∈ s.leases)
    (hl' : l' ∈ s.leases) (he : l.fake = l'.fake) : l = l' :=
  List.inj_on_of_nodup_map h.fakes hl hl' he

theorem Inv.eq_of_key {s : Store} (h : s.Inv) {l l' : Lease} (hl : l ∈ s.leases)
    (hl' : l' ∈ s.leases) (he : l.key = l'.key) : l = l' :=
  List.inj_on_of_nodup_map h.keys hl hl' he

theorem mem_used {s : Store} (h : s.Inv) {a : Ipv4Addr} :
    a ∈ s.used ↔ ∃ l ∈ s.leases, l.mapping.fake = a := by
  rw [h.used, List.mem_toFinset, List.mem_map]
  rfl

/-! ### Opening -/

theorem load_inv {db : Database} {max_leases : ℕ} {s : Store} (h : load db max_leases = .ok s) :
    s.Inv ∧ s.connection = db ∧ s.max_leases = max_leases := by
  simp only [load, bind_eq_ok, mapM_eq_ok] at h
  obtain ⟨leases, hrows, _, hpool, hs⟩ := h
  cases hs
  have hmap : db.rows = leases.map Lease.row := by
    rw [← List.forall₂_eq_eq_eq, List.forall₂_map_right_iff]
    exact hrows.imp fun r l h => (Row.row_of_lease h).symm
  refine ⟨⟨?_, ?_, ?_, rfl, ?_, ?_⟩, rfl, rfl⟩
  · have hu := db.unique
    rw [hmap, List.map_map] at hu
    exact (List.Nodup.of_map (fun p : String × Ipv4Addr => (p.1, ipv4_to_sql p.2)) <| by
      rw [List.map_map]; exact hu)
  · have hp := db.primary_key
    rw [hmap, List.map_map] at hp
    exact (List.Nodup.of_map ipv4_to_sql <| by rw [List.map_map]; exact hp)
  · intro l hl
    have hc := forM_eq_ok.mp hpool l hl
    rw [check_pool, bail_if_eq_ok, Bool.not_eq_false', Bool.and_eq_true, decide_eq_true_eq,
      decide_eq_true_eq] at hc
    exact hc
  · exact ⟨le_rfl, by rw [FIRST_FAKE_toNat, LAST_FAKE_toNat]; norm_num⟩
  · intro r
    show r ∈ db.rows ↔ _
    rw [hmap, List.mem_map]

/-- **A store that opens satisfies the invariant.** -/
theorem open_inv {db db' : Database} {max_leases : ℕ} {sql : OpenFaults} {clock : ℤ} {s : Store}
    (h : open_with_limits db max_leases sql clock = (.ok s, db')) :
    s.Inv ∧ s.connection = db' ∧ s.max_leases = max_leases := by
  simp only [open_with_limits] at h
  split at h
  · cases h
  · split at h
    · cases h
    · split at h
      · cases h
      · split at h
        · cases h
        · rw [Prod.mk.injEq] at h
          obtain ⟨hl, rfl⟩ := h
          exact load_inv hl

/-! ### Renewal -/

theorem find?_key {s : Store} (h : s.Inv) {key : String × Ipv4Addr} {l : Lease} :
    (s.leases.find? fun l => l.key = key) = some l ↔ l ∈ s.leases ∧ l.key = key := by
  constructor
  · intro hf
    exact ⟨List.mem_of_find?_eq_some hf, by simpa using List.find?_some hf⟩
  · rintro ⟨hl, hk⟩
    cases hf : s.leases.find? fun l => l.key = key with
    | none => exact absurd hk (by simpa using List.find?_eq_none.mp hf l hl)
    | some l' =>
      have hk' : l'.key = key := by simpa using List.find?_some hf
      rw [h.eq_of_key (List.mem_of_find?_eq_some hf) hl (hk'.trans hk.symm)]

theorem row_fake_eq {l l' : Lease} : l.row.fake = ipv4_to_sql l'.mapping.fake ↔ l.fake = l'.fake :=
  ipv4_to_sql_inj

/-- A change of the leases that keeps keys and fakes, made in the table too. -/
theorem Inv.map {s : Store} (h : s.Inv) {f : Lease → Lease} {connection : Database}
    (hkey : ∀ l, (f l).key = l.key) (hfake : ∀ l, (f l).fake = l.fake)
    (hrows : ∀ r, r ∈ connection ↔ ∃ l ∈ s.leases, (f l).row = r) :
    ({ s with connection, leases := s.leases.map f } : Store).Inv where
  keys := by simpa [Function.comp_def, hkey] using h.keys
  fakes := by simpa [Function.comp_def, hfake] using h.fakes
  pool := by
    intro _ hl
    obtain ⟨l, hmem, rfl⟩ := List.mem_map.mp hl
    rw [show (f l).mapping.fake = l.mapping.fake from hfake l]
    exact h.pool l hmem
  used := by simpa [Function.comp_def, hfake] using h.used
  next := h.next
  rows := by intro r; rw [hrows]; simp

theorem renew_inv {s : Store} (h : s.Inv) (sql : Bool) {lease : Lease} (hl : lease ∈ s.leases)
    (expires : ℤ) : (s.renew sql lease expires).2.Inv := by
  unfold renew
  split_ifs
  · refine h.map (fun l => by split_ifs <;> rfl) (fun l => by split_ifs <;> rfl) fun r => ?_
    have hsame : ∀ l ∈ s.leases, (if l.key = lease.key then { l with expires } else l).row =
        l.row.set_expires (ipv4_to_sql lease.mapping.fake) expires := by
      intro l hmem
      rw [Row.set_expires]
      have hiff : l.key = lease.key ↔ l.row.fake = ipv4_to_sql lease.mapping.fake := by
        rw [row_fake_eq]
        exact ⟨fun he => by rw [h.eq_of_key hmem hl he], fun he => by rw [h.eq_of_fake hmem hl he]⟩
      by_cases hk : l.key = lease.key
      · rw [if_pos hk, if_pos (hiff.mp hk)]; rfl
      · rw [if_neg hk, if_neg fun hf => hk (hiff.mpr hf)]
    rw [Database.set_expires, Keyed.mem_update]
    constructor
    · rintro ⟨r, hr, rfl⟩
      obtain ⟨l, hmem, rfl⟩ := (h.rows r).mp hr
      exact ⟨l, hmem, hsame l hmem⟩
    · rintro ⟨l, hmem, rfl⟩
      exact ⟨l.row, (h.rows _).mpr ⟨l, hmem, rfl⟩, (hsame l hmem).symm⟩
  · exact h
  · exact h

/-- A lease under `key`, extended to an expiry. -/
def extend (key : String × Ipv4Addr) (expires : ℤ) (l : Lease) : Lease :=
  if l.key = key then { l with expires := max l.expires expires } else l

@[simp] theorem extend_key (key : String × Ipv4Addr) (expires : ℤ) (l : Lease) :
    (extend key expires l).key = l.key := by unfold extend; split_ifs <;> rfl

@[simp] theorem extend_mapping (key : String × Ipv4Addr) (expires : ℤ) (l : Lease) :
    (extend key expires l).mapping = l.mapping := by unfold extend; split_ifs <;> rfl

theorem le_extend (key : String × Ipv4Addr) (expires : ℤ) (l : Lease) :
    l.expires ≤ (extend key expires l).expires := by
  unfold extend
  split_ifs
  · exact le_max_left _ _
  · exact le_rfl

/-- **Renewal** fails without a change, or extends the one lease. -/
theorem renew_eq {s : Store} (h : s.Inv) (sql : Bool) {lease : Lease} (hl : lease ∈ s.leases)
    (expires : ℤ) :
    (sql = false ∧ s.renew sql lease expires = (.error SQL_ERROR, s)) ∨
      (s.renew sql lease expires).1 = .ok (lease.mapping, false) ∧
        (s.renew sql lease expires).2.leases = s.leases.map (extend lease.key expires) := by
  unfold renew
  split_ifs with hlt hsql
  · refine .inr ⟨rfl, List.map_congr_left fun l hmem => ?_⟩
    unfold extend
    split_ifs with hk
    · rw [h.eq_of_key hmem hl hk, max_eq_right hlt.le]
    · rfl
  · exact .inl ⟨by simpa using hsql, rfl⟩
  · have hsame : ∀ l ∈ s.leases, extend lease.key expires l = l := by
      intro l hmem
      unfold extend
      split_ifs with hk
      · rw [h.eq_of_key hmem hl hk, max_eq_left (not_lt.mp hlt)]
      · rfl
    exact .inr ⟨rfl, ((List.map_congr_left hsame).trans (List.map_id _)).symm⟩

/-! ### New pairs -/

theorem candidate_toNat (next offset : ℕ) :
    (candidate next offset).toNat = 3323068417 + (next - 3323068417 + offset) % 131070 := by
  rw [candidate, FIRST_FAKE_toNat, POOL_SIZE_eq, BitVec.toNat_ofNat, Nat.mod_eq_of_lt]
  have := Nat.mod_lt (next - 3323068417 + offset) (show 0 < 131070 by norm_num)
  omega

theorem candidate_inPool (next offset : ℕ) : InPool (candidate next offset) := by
  rw [inPool_iff, candidate_toNat]
  have := Nat.mod_lt (next - 3323068417 + offset) (show 0 < 131070 by norm_num)
  omega

/-- **The candidates go through the whole pool.** -/
theorem exists_candidate {next : ℕ} (hn : next ≤ LAST_FAKE.toNat) {a : Ipv4Addr} (ha : InPool a) :
    ∃ offset < POOL_SIZE, candidate next offset = a := by
  rw [inPool_iff] at ha
  rw [LAST_FAKE_toNat] at hn
  set start := next - 3323068417 with hstart
  set target := a.toNat - 3323068417 with htarget
  refine ⟨(target + 131070 - start) % 131070, ?_, BitVec.eq_of_toNat_eq ?_⟩
  · rw [POOL_SIZE_eq]; exact Nat.mod_lt _ (by norm_num)
  · rw [candidate_toNat, ← hstart]
    omega

theorem first_free_some {used : Finset Ipv4Addr} {next remaining offset : ℕ} {a : Ipv4Addr}
    (h : first_free used next remaining offset = some a) : a ∉ used ∧ InPool a := by
  induction remaining generalizing offset with
  | zero => cases h
  | succ remaining ih =>
    rw [first_free] at h
    split at h
    · rename_i hf
      cases h
      exact ⟨hf, candidate_inPool _ _⟩
    · exact ih h

theorem first_free_none {used : Finset Ipv4Addr} {next remaining offset : ℕ}
    (h : first_free used next remaining offset = none) :
    ∀ i < remaining, candidate next (offset + i) ∈ used := by
  induction remaining generalizing offset with
  | zero => intro i hi; omega
  | succ remaining ih =>
    rw [first_free] at h
    split_ifs at h with hf
    intro i hi
    cases i with
    | zero => simpa using hf
    | succ i =>
      have := ih h i (by omega)
      rwa [show offset + 1 + i = offset + (i + 1) by omega] at this

/-- **The search finds a free address** if there is one. -/
theorem first_free_isSome {used : Finset Ipv4Addr} {next : ℕ} (hn : next ≤ LAST_FAKE.toNat) :
    (∃ a, first_free used next POOL_SIZE 0 = some a) ↔ ∃ a, InPool a ∧ a ∉ used := by
  constructor
  · rintro ⟨a, h⟩
    exact ⟨a, (first_free_some h).2, (first_free_some h).1⟩
  · rintro ⟨a, ha, hu⟩
    cases hf : first_free used next POOL_SIZE 0 with
    | some b => exact ⟨b, rfl⟩
    | none =>
      obtain ⟨i, hi, rfl⟩ := exists_candidate hn ha
      have := first_free_none hf i hi
      rw [Nat.zero_add] at this
      exact absurd this hu

section

variable {s : Store} {domain : String} {real : Ipv4Addr} {target : RouteTarget} {expires : ℤ}

theorem insert_isSome (h : s.Inv) (hnew : ∀ l ∈ s.leases, l.key ≠ (domain, real)) {l : Lease}
    (hfree : l.mapping.fake ∉ s.used) (hkey : l.key = (domain, real)) :
    ∃ connection, s.connection.insert? l.row = some connection := by
  refine Keyed.insert?_isSome (fun r hr he => ?_) fun r hr he => ?_
  · obtain ⟨l', hl', rfl⟩ := (h.rows r).mp hr
    exact hfree ((mem_used h).mpr ⟨l', hl', row_fake_eq.mp he⟩)
  · obtain ⟨l', hl', rfl⟩ := (h.rows r).mp hr
    obtain ⟨hd, hr⟩ := Prod.mk.inj he
    refine hnew l' hl' (hkey ▸ Prod.ext hd ?_)
    exact ipv4_to_sql_inj.mp hr

theorem Inv.concat (h : s.Inv) {l : Lease} (hkey : ∀ l' ∈ s.leases, l'.key ≠ l.key)
    (hfree : l.mapping.fake ∉ s.used) (hpool : InPool l.mapping.fake) {next : ℕ}
    (hnext : FIRST_FAKE.toNat ≤ next ∧ next ≤ LAST_FAKE.toNat) {connection : Database}
    (hrow : s.connection.insert? l.row = some connection) :
    ({ s with connection, next, used := insert l.mapping.fake s.used, leases := s.leases ++ [l] } :
      Store).Inv where
  keys := by
    rw [List.map_append, List.nodup_append]
    refine ⟨h.keys, List.nodup_singleton _, ?_⟩
    rintro _ ha b hb rfl
    obtain ⟨l', hl', he⟩ := List.mem_map.mp ha
    exact hkey l' hl' (he.trans (List.mem_singleton.mp hb))
  fakes := by
    rw [List.map_append, List.nodup_append]
    refine ⟨h.fakes, List.nodup_singleton _, ?_⟩
    rintro _ ha b hb rfl
    obtain ⟨l', hl', he⟩ := List.mem_map.mp ha
    exact hfree ((mem_used h).mpr ⟨l', hl', he.trans (List.mem_singleton.mp hb)⟩)
  pool := by
    intro l' hl'
    rcases List.mem_append.mp hl' with hl' | hl'
    · exact h.pool l' hl'
    · rw [List.mem_singleton.mp hl']; exact hpool
  used := by
    rw [List.map_append, List.toFinset_append, ← h.used, List.map_cons, List.map_nil,
      List.toFinset_cons, List.toFinset_nil, insert_empty_eq, Finset.insert_eq,
      Finset.union_comm]
    rfl
  next := hnext
  rows := by
    intro r
    rw [Keyed.mem_insert? hrow, h.rows]
    simp only [List.mem_append, List.mem_singleton, or_and_right, exists_or, exists_eq_left,
      eq_comm (a := r)]

theorem next_range {fake : Ipv4Addr} (h : InPool fake) :
    FIRST_FAKE.toNat ≤ (if fake = LAST_FAKE then FIRST_FAKE.toNat else fake.toNat + 1) ∧
      (if fake = LAST_FAKE then FIRST_FAKE.toNat else fake.toNat + 1) ≤ LAST_FAKE.toNat := by
  rw [inPool_iff] at h
  split_ifs with he
  · rw [FIRST_FAKE_toNat, LAST_FAKE_toNat]; norm_num
  · have hne : fake.toNat ≠ LAST_FAKE.toNat := fun hn => he (BitVec.eq_of_toNat_eq hn)
    rw [LAST_FAKE_toNat] at hne
    rw [FIRST_FAKE_toNat, LAST_FAKE_toNat]
    omega

/-- **A new pair**: refused without a change of the leases, or admitted under a free address. -/
theorem insert_new_eq (h : s.Inv) (hnew : ∀ l ∈ s.leases, l.key ≠ (domain, real)) (sql : Bool) :
    (s.insert_new sql domain real target expires).2.Inv ∧
      (((∃ e, (s.insert_new sql domain real target expires).1 = .error e) ∧
        (s.insert_new sql domain real target expires).2.leases = s.leases) ∨
      ∃ fake, fake ∉ s.used ∧
        (s.insert_new sql domain real target expires).1 = .ok (⟨fake, real, target⟩, true) ∧
        (s.insert_new sql domain real target expires).2.leases =
          s.leases ++ [⟨domain, ⟨fake, real, target⟩, expires⟩]) := by
  unfold insert_new
  split
  · exact ⟨h, .inl ⟨⟨_, rfl⟩, rfl⟩⟩
  · split
    · exact ⟨h, .inl ⟨⟨_, rfl⟩, rfl⟩⟩
    · rename_i fake hfree
      obtain ⟨hu, hpool⟩ := first_free_some hfree
      have hnext := next_range hpool
      simp only
      split
      · exact ⟨⟨h.keys, h.fakes, h.pool, h.used, hnext, h.rows⟩, .inl ⟨⟨_, rfl⟩, rfl⟩⟩
      · rename_i connection hrow
        cases sql with
        | false => cases hrow
        | true =>
          exact ⟨h.concat (l := ⟨domain, ⟨fake, real, target⟩, expires⟩) hnew hu hpool hnext hrow,
            .inr ⟨fake, hu, rfl, rfl⟩⟩

/-- **SQLite succeeding, a new pair is admitted** exactly below the limit and with a free address. -/
theorem insert_new_ok_iff (h : s.Inv) (hnew : ∀ l ∈ s.leases, l.key ≠ (domain, real)) :
    (∃ res, (s.insert_new true domain real target expires).1 = .ok res) ↔
      s.leases.length < s.max_leases ∧ ∃ a, InPool a ∧ a ∉ s.used := by
  unfold insert_new
  split
  · rename_i hle
    simp [not_lt.mpr hle]
  · rename_i hlt
    rw [and_iff_right (not_le.mp hlt), ← first_free_isSome h.next.2]
    split
    · rename_i hnone
      simp [hnone]
    · rename_i fake hfree
      obtain ⟨connection, hrow⟩ := insert_isSome h hnew
        (l := ⟨domain, ⟨fake, real, target⟩, expires⟩) (first_free_some hfree).1 rfl
      simp only [if_true, hrow, hfree]
      exact ⟨fun _ => ⟨fake, rfl⟩, fun _ => ⟨_, rfl⟩⟩

/-! ### Allocation -/

/-- What an allocation can do to the leases. -/
inductive Allocated (s : Store) (now : ℤ) (domain : String) (real : Ipv4Addr)
    (target : RouteTarget) (ttl : ℕ) : Except String (FakeMapping × Bool) → Store → Prop
  | failed {e : String} {s' : Store} (hs : s'.leases = s.leases) :
    Allocated s now domain real target ttl (.error e) s'
  | renewed {l : Lease} {s' : Store} (hl : l ∈ s.leases) (hk : l.key = (domain, real))
    (hs : s'.leases = s.leases.map (extend (domain, real) (lease_expiry now ttl))) :
    Allocated s now domain real target ttl (.ok (l.mapping, false)) s'
  | admitted {fake : Ipv4Addr} {s' : Store} (hfree : fake ∉ s.used)
    (hnew : ∀ l ∈ s.leases, l.key ≠ (domain, real))
    (hs : s'.leases = s.leases ++ [⟨domain, ⟨fake, real, target⟩, lease_expiry now ttl⟩]) :
    Allocated s now domain real target ttl (.ok (⟨fake, real, target⟩, true)) s'

theorem unix_time_eq {clock now : ℤ} (h : unix_time clock = .ok now) :
    now = clock ∧ 0 ≤ clock ∧ clock ≤ I64_MAX := by
  unfold unix_time at h
  split_ifs at h with h₁ h₂
  cases h
  exact ⟨rfl, not_lt.mp h₁, not_lt.mp h₂⟩

theorem find?_key_none {key : String × Ipv4Addr}
    (h : (s.leases.find? fun l => l.key = key) = none) : ∀ l ∈ s.leases, l.key ≠ key := by
  simpa using h

/-- **Every allocation keeps the invariant**, and does one of three things. -/
theorem allocate_spec (h : s.Inv) (sql : Bool) (clock : ℤ) (domain : String) (real : Ipv4Addr)
    (target : RouteTarget) (ttl : ℕ) :
    (s.allocate sql clock domain real target ttl).2.Inv ∧
      Allocated s clock domain real target ttl (s.allocate sql clock domain real target ttl).1
        (s.allocate sql clock domain real target ttl).2 := by
  unfold allocate
  split
  · exact ⟨h, .failed rfl⟩
  · rename_i now hnow
    obtain ⟨rfl, -, -⟩ := unix_time_eq hnow
    split
    · rename_i lease hf
      obtain ⟨hl, hk⟩ := (find?_key h).mp hf
      refine ⟨renew_inv h sql hl _, ?_⟩
      rcases renew_eq h sql hl (lease_expiry now ttl) with ⟨-, he⟩ | ⟨he, hs⟩
      · rw [he]; exact .failed rfl
      · rw [he]; exact .renewed hl hk (hk ▸ hs)
    · rename_i hf
      have hnew := find?_key_none hf
      have hins := @insert_new_eq s domain real target (lease_expiry now ttl) h hnew sql
      obtain ⟨hi, ⟨⟨e, he⟩, hs⟩ | ⟨fake, hu, he, hs⟩⟩ := hins
      · rw [he]; exact ⟨hi, .failed hs⟩
      · rw [he]; exact ⟨hi, .admitted hu hnew hs⟩

/-- **Renewal needs no free capacity.** -/
theorem allocate_found (h : s.Inv) {clock : ℤ} (hc : unix_time clock = .ok clock) {l : Lease}
    (hl : l ∈ s.leases) (target : RouteTarget) (ttl : ℕ) :
    (s.allocate true clock l.domain l.mapping.real target ttl).1 = .ok (l.mapping, false) := by
  have hf : (s.leases.find? fun l' => l'.key = (l.domain, l.mapping.real)) = some l :=
    (find?_key h).mpr ⟨hl, rfl⟩
  unfold allocate
  rw [hc]
  simp only [hf]
  rcases renew_eq h true hl (lease_expiry clock ttl) with ⟨hsql, -⟩ | ⟨he, -⟩
  · cases hsql
  · exact he

/-- **A new pair is admitted** exactly below the limit and with a free address. -/
theorem allocate_new_iff (h : s.Inv) {clock : ℤ} (hc : unix_time clock = .ok clock)
    (hnew : ∀ l ∈ s.leases, l.key ≠ (domain, real)) (target : RouteTarget) (ttl : ℕ) :
    (∃ res, (s.allocate true clock domain real target ttl).1 = .ok res) ↔
      s.leases.length < s.max_leases ∧ ∃ a, InPool a ∧ a ∉ s.used := by
  have hf : (s.leases.find? fun l => l.key = (domain, real)) = none := by simpa using hnew
  unfold allocate
  rw [hc]
  simp only [hf]
  exact insert_new_ok_iff h hnew

/-! ### Removal and reclassification -/

theorem mem_foldl_delete {db : Database} {mappings : List FakeMapping} {r : Row} :
    r ∈ mappings.foldl (fun db m => db.delete_fake (ipv4_to_sql m.fake)) db ↔
      r ∈ db ∧ ∀ m ∈ mappings, r.fake ≠ ipv4_to_sql m.fake := by
  induction mappings generalizing db with
  | nil => simp
  | cons m mappings ih =>
    rw [List.foldl_cons, ih, Database.delete_fake, Keyed.mem_delete, List.forall_mem_cons,
      decide_eq_false_iff_not, and_assoc]

theorem remove_mappings_inv (h : s.Inv) (sql : Bool) (mappings : List FakeMapping) :
    (s.remove_mappings sql mappings).2.Inv := by
  unfold remove_mappings
  split_ifs
  · refine ⟨h.keys.sublist (List.filter_sublist.map _), h.fakes.sublist (List.filter_sublist.map _),
      fun l hl => h.pool l (List.mem_filter.mp hl).1, ?_, h.next, fun r => ?_⟩
    · ext a
      simp only [Finset.mem_filter, mem_used h, List.mem_toFinset, List.mem_map, List.mem_filter,
        decide_eq_true_eq, Lease.fake]
      constructor
      · rintro ⟨⟨l, hl, rfl⟩, hno⟩; exact ⟨l, ⟨hl, hno⟩, rfl⟩
      · rintro ⟨l, ⟨hl, hno⟩, rfl⟩; exact ⟨⟨l, hl, rfl⟩, hno⟩
    · rw [mem_foldl_delete, h.rows]
      simp only [List.mem_filter, decide_eq_true_eq, List.mem_map, not_exists, not_and]
      constructor
      · rintro ⟨⟨l, hl, rfl⟩, hno⟩
        exact ⟨l, ⟨hl, fun m hm he => hno m hm (congrArg ipv4_to_sql he).symm⟩, rfl⟩
      · rintro ⟨l, ⟨hl, hno⟩, rfl⟩
        exact ⟨⟨l, hl, rfl⟩, fun m hm he => hno m hm (ipv4_to_sql_inj.mp he).symm⟩
  · exact h

theorem mem_foldl_set_target {db : Database} {f : Lease → ℤ} {leases : List Lease} {r : Row} :
    r ∈ leases.foldl (fun db l => db.set_target (ipv4_to_sql l.mapping.fake) (f l)) db ↔
      ∃ r₀ ∈ db,
        leases.foldl (fun r l => r.set_target (ipv4_to_sql l.mapping.fake) (f l)) r₀ = r := by
  induction leases generalizing db with
  | nil => simp
  | cons l leases ih =>
    rw [List.foldl_cons, ih]
    simp only [Database.set_target, Keyed.mem_update, List.foldl_cons]
    constructor
    · rintro ⟨_, ⟨r₀, h₀, rfl⟩, he⟩; exact ⟨r₀, h₀, he⟩
    · rintro ⟨r₀, h₀, he⟩; exact ⟨_, ⟨r₀, h₀, rfl⟩, he⟩

/-- **The row of a lease gets that lease's target.** -/
theorem foldl_set_target {f : Lease → ℤ} {leases : List Lease}
    (hn : (leases.map Lease.fake).Nodup) {l : Lease} (hl : l ∈ leases) :
    leases.foldl (fun r l => r.set_target (ipv4_to_sql l.mapping.fake) (f l)) l.row =
      l.row.set_target (ipv4_to_sql l.mapping.fake) (f l) := by
  have hskip : ∀ (leases : List Lease) (r : Row),
      (∀ l ∈ leases, r.fake ≠ ipv4_to_sql l.mapping.fake) →
        leases.foldl (fun r l => r.set_target (ipv4_to_sql l.mapping.fake) (f l)) r = r := by
    intro leases r hno
    induction leases with
    | nil => rfl
    | cons l leases ih =>
      rw [List.foldl_cons, Row.set_target, if_neg (hno l List.mem_cons_self)]
      exact ih fun l hl => hno l (List.mem_cons_of_mem _ hl)
  induction leases with
  | nil => cases hl
  | cons l' leases ih =>
    obtain ⟨hno, hn⟩ := List.nodup_cons.mp hn
    rw [List.foldl_cons]
    rcases List.mem_cons.mp hl with rfl | hl
    · refine hskip leases _ fun l' hl' he => hno ?_
      rw [Row.set_target_fake] at he
      exact row_fake_eq.mp he ▸ List.mem_map_of_mem hl'
    · have hne : l.row.fake ≠ ipv4_to_sql l'.mapping.fake :=
        fun he => hno (row_fake_eq.mp he ▸ List.mem_map_of_mem hl)
      rw [show l.row.set_target (ipv4_to_sql l'.mapping.fake) (f l') = l.row from if_neg hne]
      exact ih hn hl

theorem retarget_row [RegexEngine] (policy : RoutingPolicy) (l : Lease) :
    (retarget policy l).row = l.row.set_target (ipv4_to_sql l.mapping.fake)
      (target_code (policy.target l.domain l.mapping.real)) := by
  exact (if_pos (show l.row.fake = ipv4_to_sql l.mapping.fake from rfl)).symm

theorem commit_targets_inv [RegexEngine] (h : s.Inv) (sql : Bool) (policy : RoutingPolicy) :
    (s.commit_targets sql policy).2.Inv := by
  unfold commit_targets
  split_ifs
  · refine h.map (f := retarget policy) (fun l => rfl) (fun l => rfl) fun r => ?_
    rw [mem_foldl_set_target]
    constructor
    · rintro ⟨_, hr, rfl⟩
      obtain ⟨l, hl, rfl⟩ := (h.rows _).mp hr
      exact ⟨l, hl, (retarget_row policy l).trans
        (@foldl_set_target (fun l => target_code (policy.target l.domain l.mapping.real)) _
          h.fakes l hl).symm⟩
    · rintro ⟨l, hl, rfl⟩
      rw [retarget_row]
      exact ⟨l.row, (h.rows _).mpr ⟨l, hl, rfl⟩,
        @foldl_set_target (fun l => target_code (policy.target l.domain l.mapping.real)) _
          h.fakes l hl⟩
  · exact h

end

end Store

end Gofro.Agent

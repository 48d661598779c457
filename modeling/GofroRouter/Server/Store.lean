import GofroRouter.Lib.Json
import GofroRouter.Lib.Sim
import GofroRouter.Server.Address

/-!
# The friend metadata

`managed/store.rs`: the file that names the friends and lists the router owners of an interface, as
JSON text of at most 512 KiB.

* `read_store`, `encode_store`. `FriendStore.Valid`: what the checks of a loaded file leave.
* **`read_store_encode`**: what is written is read back.
-/

namespace Gofro.Server

open Text Json
open Gofro.Agent (bail_if bail_if_eq_ok bind_eq_ok forM_eq_ok)

def STORE_LIMIT : ℕ := 512 * 1024

/-- A friend, live or revoked; the key is the one of its profile. -/
structure FriendRecord where
  public_key : String
  name : String
  private_key : Option String
deriving DecidableEq

/-- The metadata: friends, and the keys of owners. -/
structure FriendStore where
  schema : ℕ
  records : List FriendRecord
  owners : List String
deriving DecidableEq

/-! ## JSON -/

/-- Said of a file that does not pass the checks. -/
def INVALID : String := "invalid friend metadata"

def text_value (s : String) : Value := .string s

def FriendRecord.to_value (record : FriendRecord) : Value :=
  .object ([("public_key", text_value record.public_key), ("name", text_value record.name)] ++
    record.private_key.toList.map fun key => ("private_key", text_value key))

/-- The members of the current schema. -/
def FriendStore.to_value (store : FriendStore) : Value :=
  .object [("schema", .number (.ofNat store.schema)),
    ("records", .array (store.records.map FriendRecord.to_value)),
    ("owners", .array (store.owners.map text_value))]

def as_string : Value → Option String
  | .string s => some s
  | _ => none

def as_list {α : Type} (item : Value → Option α) : Value → Option (List α)
  | .array vs => vs.mapM item
  | _ => none

/-- `null` is no value. -/
def as_option {α : Type} (item : Value → Option α) : Value → Option (Option α)
  | .null => some none
  | v => (item v).map some

/-- A member that must be there. -/
def required {α : Type} (members : List (String × Value)) (name : String)
    (item : Value → Option α) : Option α := do
  item (← ← member members name)

/-- A member that may be missing. -/
def optional {α : Type} (members : List (String × Value)) (name : String)
    (item : Value → Option α) : Option (Option α) := do
  match ← member members name with
  | none => some none
  | some v => as_option item v

/-- `deny_unknown_fields` -/
def only (members : List (String × Value)) (names : List String) : Option Unit :=
  if members.all fun m => m.1 ∈ names then some () else none

/-- A record is an object, or an array of its fields in order. -/
def FriendRecord.of_value : Value → Option FriendRecord
  | .object members => do
    some ⟨← required members "public_key" as_string, ← required members "name" as_string,
      ← optional members "private_key" as_string⟩
  | .array [public_key, name, private_key] => do
    some ⟨← as_string public_key, ← as_string name, ← as_option as_string private_key⟩
  | _ => none

def as_u8 (v : Value) : Option ℕ := v.as_u64.filter (· < 256)

/-- `LegacyFriendStore`, without owners. -/
def legacy_of_value : Value → Option FriendStore
  | .object members => do
    only members ["schema", "records"]
    some ⟨← required members "schema" as_u8,
      ← required members "records" (as_list FriendRecord.of_value), []⟩
  | _ => none

/-- Unknown members are refused in an object. -/
def FriendStore.of_value : Value → Option FriendStore
  | .object members => do
    only members ["schema", "records", "owners"]
    some ⟨← required members "schema" as_u8,
      ← required members "records" (as_list FriendRecord.of_value),
      ← required members "owners" (as_list as_string)⟩
  | _ => none

/-! ## Reading and writing -/

def or_error {α : Type} (message : String) : Option α → Except String α
  | some a => .ok a
  | none => .error message

/-- The records of a file, each with a new key. -/
def check_records : List FriendRecord → List String → Except String (List String)
  | [], keys => .ok keys
  | record :: records, keys => do
    validate_peer_key record.public_key
    discard (validate_name record.name)
    bail_if ((record.private_key.any fun key => !(validate_peer_key key).isOk) ||
      record.public_key ∈ keys) INVALID
    check_records records (record.public_key :: keys)

/-- The loop over the owners. -/
def check_owners : List String → List String → Except String Unit
  | [], _ => .ok ()
  | owner :: owners, keys => do
    validate_peer_key owner
    bail_if (owner ∈ keys) "owner metadata overlaps friend metadata"
    check_owners owners (owner :: keys)

/-- Only the second schema has owners. -/
def check_schema (store : FriendStore) (keys : List String) : Except String Unit :=
  if store.schema = 2 then check_owners store.owners keys else .ok ()

/-- The content of a file, by its schema. -/
def parse_store (data : String) : Except String FriendStore := do
  let value ← or_error INVALID (from_str data)
  let schema ← or_error INVALID ((value.get "schema").bind Value.as_u64)
  match schema with
  | 1 => or_error INVALID (legacy_of_value value)
  | 2 => or_error INVALID (FriendStore.of_value value)
  | _ => .error "unsupported friend metadata schema"

/-- The metadata file; without one there are no records. -/
def read_store : Option String → Except String FriendStore
  | none => .ok ⟨1, [], []⟩
  | some data => do
    bail_if (STORE_LIMIT < len data) "friend metadata is too large"
    let store ← parse_store data
    let keys ← check_records store.records []
    check_schema store keys
    return store

/-- The text that is written, with its newline. -/
def encode_store (store : FriendStore) : Except String String := do
  let encoded := to_string store.to_value
  bail_if (STORE_LIMIT < len encoded + 1) "friend metadata is too large"
  return encoded ++ "\n"

/-! ## Well-formed metadata -/

/-- The checks of one record. -/
structure FriendRecord.Valid (record : FriendRecord) : Prop where
  public_key : validate_peer_key record.public_key = .ok ()
  name : ∃ name, validate_name record.name = .ok name
  private_key : ∀ key ∈ record.private_key, validate_peer_key key = .ok ()

/-- The checks of a whole file: no key is listed twice, in either role. -/
structure FriendStore.Valid (store : FriendStore) : Prop where
  records : ∀ record ∈ store.records, record.Valid
  owners : ∀ owner ∈ store.owners, validate_peer_key owner = .ok ()
  distinct : (store.records.map FriendRecord.public_key ++ store.owners).Nodup

theorem isOk_eq_false {α : Type} {x : Except String α} : (!x.isOk) = false ↔ ∃ a, x = .ok a := by
  cases x <;> simp [Except.isOk, Except.toBool]

theorem discard_eq_ok {α : Type} {x : Except String α} {u : Unit} :
    discard x = .ok u ↔ ∃ a, x = .ok a := by
  cases x <;> simp [discard, Functor.discard, Functor.mapConst, Except.map]

theorem check_records_cons {record : FriendRecord} {records : List FriendRecord}
    {keys keys' : List String} : check_records (record :: records) keys = .ok keys' ↔
      record.Valid ∧ record.public_key ∉ keys ∧
        check_records records (record.public_key :: keys) = .ok keys' := by
  have hkeys : (record.private_key.any fun key => !(validate_peer_key key).isOk) = false ↔
      ∀ key ∈ record.private_key, validate_peer_key key = .ok () := by
    cases record.private_key with
    | none => simp
    | some key =>
      rw [Option.any_some, isOk_eq_false]
      exact ⟨fun ⟨_, h⟩ _ hk => Option.mem_some_iff.mp hk ▸ h, fun h => ⟨(), h key rfl⟩⟩
  simp only [check_records, bind_eq_ok, bail_if_eq_ok, discard_eq_ok, Bool.or_eq_false_iff,
    decide_eq_false_iff_not, hkeys]
  constructor
  · rintro ⟨_, hpk, _, hn, _, ⟨hpriv, hmem⟩, h⟩
    exact ⟨⟨hpk, hn, hpriv⟩, hmem, h⟩
  · rintro ⟨hv, hmem, h⟩
    exact ⟨(), hv.public_key, (), hv.name, (), ⟨hv.private_key, hmem⟩, h⟩

/-- **The records that pass**: well-formed ones with new and different keys. -/
theorem check_records_eq_ok {records : List FriendRecord} {keys keys' : List String} :
    check_records records keys = .ok keys' ↔ (∀ record ∈ records, record.Valid) ∧
      (records.map FriendRecord.public_key).Nodup ∧
      (∀ record ∈ records, record.public_key ∉ keys) ∧
      keys' = (records.map FriendRecord.public_key).reverse ++ keys := by
  induction records generalizing keys with
  | nil => simp [check_records, eq_comm]
  | cons record records ih =>
    have hnew : (∀ r ∈ records, r.public_key ∉ record.public_key :: keys) ↔
        record.public_key ∉ records.map FriendRecord.public_key ∧
          ∀ r ∈ records, r.public_key ∉ keys := by
      simp only [List.mem_cons, not_or, List.mem_map, not_exists, not_and]
      exact ⟨fun h => ⟨fun r hr => (h r hr).1, fun r hr => (h r hr).2⟩,
        fun h r hr => ⟨h.1 r hr, h.2 r hr⟩⟩
    rw [check_records_cons, ih, hnew, List.map_cons, List.nodup_cons, List.forall_mem_cons,
      List.forall_mem_cons, List.reverse_cons, List.append_assoc, List.singleton_append]
    tauto

theorem check_owners_eq_ok {owners keys : List String} {u : Unit} :
    check_owners owners keys = .ok u ↔ (∀ owner ∈ owners, validate_peer_key owner = .ok ()) ∧
      owners.Nodup ∧ ∀ owner ∈ owners, owner ∉ keys := by
  induction owners generalizing keys with
  | nil => simp [check_owners]
  | cons owner owners ih =>
    have hnew : (∀ o ∈ owners, o ∉ owner :: keys) ↔ owner ∉ owners ∧ ∀ o ∈ owners, o ∉ keys := by
      simp only [List.mem_cons, not_or]
      exact ⟨fun h => ⟨fun hm => (h owner hm).1 rfl, fun o ho => (h o ho).2⟩,
        fun h o ho => ⟨fun he => h.1 (he ▸ ho), h.2 o ho⟩⟩
    have hstep : check_owners (owner :: owners) keys = .ok u ↔
        validate_peer_key owner = .ok () ∧ owner ∉ keys ∧
          check_owners owners (owner :: keys) = .ok u := by
      simp only [check_owners, bind_eq_ok, bail_if_eq_ok, decide_eq_false_iff_not]
      constructor
      · rintro ⟨_, h₁, _, h₂, h₃⟩
        exact ⟨h₁, h₂, h₃⟩
      · rintro ⟨h₁, h₂, h₃⟩
        exact ⟨(), h₁, (), h₂, h₃⟩
    rw [hstep, ih, hnew, List.forall_mem_cons, List.nodup_cons, List.forall_mem_cons]
    tauto

/-- **The files that are accepted**: short enough, and with well-formed content. -/
theorem read_store_eq_ok {data : String} {store : FriendStore} :
    read_store (some data) = .ok store ↔ len data ≤ STORE_LIMIT ∧ parse_store data = .ok store ∧
      (∀ record ∈ store.records, record.Valid) ∧
      (store.records.map FriendRecord.public_key).Nodup ∧
      (store.schema = 2 → (∀ owner ∈ store.owners, validate_peer_key owner = .ok ()) ∧
        store.owners.Nodup ∧
        ∀ owner ∈ store.owners, owner ∉ store.records.map FriendRecord.public_key) := by
  have howners : ∀ keys, check_records store.records [] = .ok keys →
      (check_schema store keys = .ok () ↔
        (store.schema = 2 → (∀ owner ∈ store.owners, validate_peer_key owner = .ok ()) ∧
          store.owners.Nodup ∧
          ∀ owner ∈ store.owners, owner ∉ store.records.map FriendRecord.public_key)) := by
    intro keys hk
    obtain ⟨-, -, -, rfl⟩ := check_records_eq_ok.mp hk
    by_cases h2 : store.schema = 2
    · rw [check_schema, if_pos h2, check_owners_eq_ok]
      simp only [List.append_nil, List.mem_reverse, h2, true_implies]
    · rw [check_schema, if_neg h2]
      exact ⟨fun _ h => absurd h h2, fun _ => rfl⟩
  have hrec : (∃ keys, check_records store.records [] = .ok keys) ↔
      (∀ record ∈ store.records, record.Valid) ∧
        (store.records.map FriendRecord.public_key).Nodup := by
    simp only [check_records_eq_ok, List.not_mem_nil, not_false_eq_true, implies_true, true_and]
    exact ⟨fun ⟨_, h₁, h₂, _⟩ => ⟨h₁, h₂⟩, fun ⟨h₁, h₂⟩ => ⟨_, h₁, h₂, rfl⟩⟩
  simp only [read_store, bind_eq_ok, bail_if_eq_ok, decide_eq_false_iff_not, not_lt]
  constructor
  · rintro ⟨_, hlen, store', hparse, keys, hkeys, _, ho, h⟩
    cases h
    obtain ⟨hv, hnd⟩ := hrec.mp ⟨keys, hkeys⟩
    exact ⟨hlen, hparse, hv, hnd, (howners keys hkeys).mp ho⟩
  · rintro ⟨hlen, hparse, hv, hnd, ho⟩
    obtain ⟨keys, hkeys⟩ := hrec.mpr ⟨hv, hnd⟩
    exact ⟨(), hlen, store, hparse, keys, hkeys, (), (howners keys hkeys).mpr ho, rfl⟩

theorem required_schema {members : List (String × Value)} {schema n : ℕ}
    (h : required members "schema" as_u8 = some n)
    (hget : (Value.get "schema" (.object members)).bind Value.as_u64 = some schema) : n = schema := by
  simp only [required, Option.bind_eq_bind, Option.bind_eq_some_iff] at h
  obtain ⟨_, hm, v, rfl, hv⟩ := h
  rw [get_of_member hm, Option.bind_some] at hget
  rw [as_u8, hget, Option.filter_eq_some_iff] at hv
  exact (Option.some.inj hv.1).symm

theorem parse_store_schema {data : String} {store : FriendStore}
    (h : parse_store data = .ok store) :
    (store.schema = 1 ∧ store.owners = []) ∨ store.schema = 2 := by
  have hor : ∀ {α : Type} {message : String} {o : Option α} {a : α},
      or_error message o = .ok a → o = some a := by
    intro α message o a h
    cases o with
    | none => cases h
    | some b => cases h; rfl
  simp only [parse_store, bind_eq_ok] at h
  obtain ⟨v, -, schema, hschema, h⟩ := h
  have hget := hor hschema
  split at h
  · have hv := hor h
    unfold legacy_of_value at hv
    split at hv
    · simp only [Option.bind_eq_bind, Option.bind_eq_some_iff, Option.some.injEq] at hv
      obtain ⟨_, -, n, hn, records, -, rfl⟩ := hv
      exact .inl ⟨required_schema hn hget, rfl⟩
    · cases hv
  · have hv := hor h
    unfold FriendStore.of_value at hv
    split at hv
    · simp only [Option.bind_eq_bind, Option.bind_eq_some_iff, Option.some.injEq] at hv
      obtain ⟨_, -, n, hn, records, -, owners, -, rfl⟩ := hv
      exact .inr (required_schema hn hget)
    · cases hv
  · cases h

theorem read_store_schema {metadata : Option String} {store : FriendStore}
    (h : read_store metadata = .ok store) :
    (store.schema = 1 ∧ store.owners = []) ∨ store.schema = 2 := by
  cases metadata with
  | none =>
    cases h
    exact .inl ⟨rfl, rfl⟩
  | some data => exact parse_store_schema (read_store_eq_ok.mp h).2.1

theorem read_store_valid {metadata : Option String} {store : FriendStore}
    (h : read_store metadata = .ok store) : store.Valid := by
  cases metadata with
  | none =>
    cases h
    exact ⟨fun _ hr => (nomatch hr), fun _ ho => (nomatch ho), List.nodup_nil⟩
  | some data =>
    obtain ⟨-, hparse, hrec, hnd, ho⟩ := read_store_eq_ok.mp h
    rcases parse_store_schema hparse with ⟨-, hs⟩ | hs
    · refine ⟨hrec, ?_, ?_⟩
      · rw [hs]
        exact fun _ ho => nomatch ho
      · rw [hs, List.append_nil]
        exact hnd
    · obtain ⟨hown, hnd', hdis⟩ := ho hs
      exact ⟨hrec, hown, List.nodup_append.mpr ⟨hnd, hnd', fun a ha b hb hab => hdis b hb (hab ▸ ha)⟩⟩

/-! ## Round trip -/

theorem FriendRecord.of_value_to_value (record : FriendRecord) :
    FriendRecord.of_value record.to_value = some record := by
  obtain ⟨public_key, name, private_key⟩ := record
  cases private_key with
  | none => rfl
  | some key => rfl

theorem FriendStore.of_value_to_value {store : FriendStore} (h : store.schema < 256) :
    FriendStore.of_value store.to_value = some store := by
  have hschema : as_u8 (.number (.ofNat store.schema)) = some store.schema := by
    rw [as_u8, Value.as_u64, Numeral.as_u64_ofNat (by omega), Option.filter_some_pos]
    exact decide_eq_true h
  have hrec : as_list FriendRecord.of_value (.array (store.records.map FriendRecord.to_value)) =
      some store.records := mapM_map fun record _ => record.of_value_to_value
  have hown : as_list as_string (.array (store.owners.map text_value)) = some store.owners := by
    rw [as_list]
    exact @mapM_map _ _ text_value _ _ fun _ _ => rfl
  rw [FriendStore.to_value, FriendStore.of_value]
  show (do
    let schema ← as_u8 (.number (.ofNat store.schema))
    let records ← as_list FriendRecord.of_value (.array (store.records.map FriendRecord.to_value))
    let owners ← as_list as_string (.array (store.owners.map text_value))
    some (⟨schema, records, owners⟩ : FriendStore)) = _
  rw [hschema, hrec, hown]
  rfl

theorem depthItems_le {vs : List Value} {n : ℕ} (h : ∀ v ∈ vs, v.depth ≤ n) : depthItems vs ≤ n := by
  induction vs with
  | nil => rw [depthItems]; exact Nat.zero_le n
  | cons v vs ih =>
    rw [depthItems]
    exact max_le (h v List.mem_cons_self) (ih fun w hw => h w (List.mem_cons_of_mem _ hw))

theorem FriendRecord.depth_to_value (record : FriendRecord) : record.to_value.depth ≤ 1 := by
  obtain ⟨public_key, name, private_key⟩ := record
  cases private_key <;> exact Nat.le_refl 1

theorem FriendStore.depth_to_value (store : FriendStore) : store.to_value.depth ≤ MAX_DEPTH := by
  have hrec : depthItems (store.records.map FriendRecord.to_value) ≤ 1 := by
    apply depthItems_le
    rintro _ hv
    obtain ⟨record, -, rfl⟩ := List.mem_map.mp hv
    exact record.depth_to_value
  have hown : depthItems (store.owners.map text_value) ≤ 1 := by
    apply depthItems_le
    rintro _ hv
    obtain ⟨owner, -, rfl⟩ := List.mem_map.mp hv
    exact Nat.zero_le 1
  rw [FriendStore.to_value]
  simp only [Value.depth, depthMembers, MAX_DEPTH]
  omega

theorem parse_store_encode {store : FriendStore} (hs : store.schema = 2) {data : String}
    (h : encode_store store = .ok data) : len data ≤ STORE_LIMIT ∧ parse_store data = .ok store := by
  simp only [encode_store, bind_eq_ok, bail_if_eq_ok, decide_eq_false_iff_not, not_lt] at h
  obtain ⟨_, hlen, h⟩ := h
  cases h
  have hjson : from_str (to_string store.to_value ++ "\n") = some store.to_value := by
    have hspace : ∀ c ∈ ['\n'], isSpace c = true := fun c hc => by
      rw [List.mem_singleton.mp hc]
      rfl
    have hrt := from_str_to_string store.depth_to_value hspace
    rwa [String.ofList_append] at hrt
  have hget : (store.to_value.get "schema").bind Value.as_u64 = some 2 := by
    show (Numeral.ofNat store.schema).as_u64 = some 2
    rw [hs]
    exact Numeral.as_u64_ofNat (by omega)
  have hparse : parse_store (to_string store.to_value ++ "\n") = .ok store := by
    rw [parse_store, hjson]
    simp only [or_error, hget, Except.bind, bind]
    rw [FriendStore.of_value_to_value (by omega)]
  refine ⟨?_, hparse⟩
  rw [len_append]
  exact hlen

/-- **What is written is read back.** -/
theorem read_store_encode {store : FriendStore} (hs : store.schema = 2) (hv : store.Valid)
    {data : String} (h : encode_store store = .ok data) : read_store (some data) = .ok store := by
  obtain ⟨hlen, hparse⟩ := parse_store_encode hs h
  obtain ⟨hnd, hnd', hdis⟩ := List.nodup_append.mp hv.distinct
  refine read_store_eq_ok.mpr ⟨hlen, hparse, hv.records, hnd, fun _ => ⟨hv.owners, hnd', ?_⟩⟩
  exact fun owner ho hr => hdis owner hr owner ho rfl

end Gofro.Server

import GofroRouter.Agent.Config
import GofroRouter.Lib.Json
import GofroRouter.Lib.IpAddr
import GofroRouter.Lib.Ordered
import Mathlib.Data.String.Basic

/-!
# The device inventory

`devices.rs`: the excluded devices, and what lease files and the neighbour table tell about devices
on the LAN. The local commands are parameters: each of them may fail.

* `merge_row_spec`: what one row adds.
* `Inventory.eq`: the inventory is determined by the sets of rows and excluded devices.
* **`list_inventory`**: the inventory, for all rows in any order.
-/

namespace Gofro.Agent

open Text

namespace Devices

def MAX_BYTES : ℕ := 1024 * 1024
def MAX_ROWS : ℕ := 4096
def MAX_FILES : ℕ := 8
def MAX_NAME : ℕ := 63

/-- Where the leases are if `uci` names no file. -/
def FALLBACK : String := "/tmp/dhcp.leases"

/-- A device of the LAN as the panel lists it. -/
structure LanDevice where
  mac : MacAddress
  name : Option String
  addresses : List IpAddr
deriving DecidableEq

/-- How many of the sources could be read. -/
inductive Discovery
  | complete
  | unavailable
  | partly
deriving DecidableEq

/-- The answer of the inventory. -/
structure LanDeviceInventory where
  devices : List LanDevice
  discovery : Discovery
deriving DecidableEq

/-! ## Orders -/

/-- IPv4 comes before IPv6; within a family the addresses are compared by their groups. -/
def rank : IpAddr → List ℕ
  | .v4 ip => [0, ip.toNat]
  | .v6 ip => 1 :: ip.segments.map BitVec.toNat

theorem rank_injective : Function.Injective rank := by
  intro a b h
  cases a <;> cases b
  · simpa [rank, BitVec.toNat_inj] using h
  · simp [rank] at h
  · simp [rank] at h
  · rename_i a b
    have hs : a.segments = b.segments := by
      refine List.map_injective_iff.mpr (fun x y hxy => BitVec.eq_of_toNat_eq hxy) ?_
      simpa [rank] using h
    obtain ⟨_, _⟩ := a
    obtain ⟨_, _⟩ := b
    cases hs
    rfl

instance : LinearOrder IpAddr := LinearOrder.lift' rank rank_injective

/-- The order of hardware addresses is that of their numbers. -/
def LanDevice.key (d : LanDevice) : ℕ := d.mac.bits.toNat

theorem mac_eq_of_bits {a b : MacAddress} (h : a.bits.toNat = b.bits.toNat) : a = b := by
  obtain ⟨a, _, _⟩ := a
  obtain ⟨b, _, _⟩ := b
  cases BitVec.eq_of_toNat_eq h
  rfl

theorem key_eq {d d' : LanDevice} : d.key = d'.key ↔ d.mac = d'.mac :=
  ⟨mac_eq_of_bits, fun h => congrArg (fun m => m.bits.toNat) h⟩

/-! ## Merging -/

/-- A device of which nothing but its address is known. -/
def unknown (mac : MacAddress) : LanDevice := ⟨mac, none, []⟩

/-- Deterministic even when lease files disagree or change order. -/
def merge_name (name old : Option String) : Option String :=
  match name, old with
  | none, old => old
  | some name, none => some name
  | some name, some old => if name < old then some name else some old

/-- A row joins what is known of its device. -/
def merge_device (row device : LanDevice) : LanDevice where
  mac := device.mac
  name := merge_name row.name device.name
  addresses := dedup ((device.addresses ++ row.addresses).mergeSort (· ≤ ·))

/-- One row of the loop in `merge`. -/
def merge_row (devices : List LanDevice) (row : LanDevice) : List LanDevice :=
  Ordered.upsert LanDevice.key (unknown row.mac) (merge_device row) devices

/-- The loop over the rows of one source. -/
def merge (devices rows : List LanDevice) : List LanDevice := rows.foldl merge_row devices

/-- `devices.insert(mac, …)` for each excluded address. -/
def excluded_devices (exclusions : List MacAddress) : List LanDevice :=
  exclusions.foldl (fun devices mac =>
    Ordered.upsert LanDevice.key (unknown mac) (fun device => unknown device.mac) devices) []

/-! ## Sources -/

/-- `str::split_ascii_whitespace` -/
def split_ascii_whitespace (cs : List Char) : List (List Char) :=
  (cs.splitOnP fun c => c = ' ' || c = '\t' || c = '\n' || c = '\r' || c.toNat = 12).filter
    (· ≠ [])

def is_ascii_hexdigit (c : Char) : Bool := (digit 16 c).isSome

/-- `MacAddress::from_str` -/
def parse_mac (cs : List Char) : Option MacAddress := do
  let parts := cs.splitOn ':'
  if byteLen cs ≠ 17 ∨ parts.length ≠ 6 ∨
      ¬ parts.all (fun part => byteLen part = 2 && part.all is_ascii_hexdigit) then none
  else
    let bytes ← parts.mapM (parse_unsigned 16 255)
    let bits := BitVec.ofNat 48 (bytes.foldl (fun n byte => n * 256 + byte) 0)
    if h : bits ≠ 0 ∧ bits.getLsbD 40 = false then some ⟨bits, h.1, h.2⟩ else none

/-- A host of the LAN other than the router itself. -/
def in_lan (lan : LanContext) : IpAddr → Bool
  | .v4 ip =>
    ip ≠ 0 && !is_loopback ip && !is_multicast ip && lan.subnet.contains ip &&
      ip ≠ lan.subnet.network && ip ≠ lan.subnet.broadcast && ip ≠ lan.address
  | .v6 ip =>
    ip.segments ≠ [0, 0, 0, 0, 0, 0, 0, 0] && ip.segments ≠ [0, 0, 0, 0, 0, 0, 0, 1] &&
      !(ip.segments.head?.any fun g => g.toNat / 256 = 255) && (IpAddr.mapped ip.segments).isNone

/-- The characters within the first `limit` bytes. -/
def within (limit : ℕ) : List Char → List Char
  | [] => []
  | c :: cs => if c.utf8Size ≤ limit then c :: within (limit - c.utf8Size) cs else []

/-- Marks that change the direction of a text. -/
def is_direction_mark (c : Char) : Bool :=
  (0x200e ≤ c.toNat && c.toNat ≤ 0x200f) || (0x202a ≤ c.toNat && c.toNat ≤ 0x202e) ||
    (0x2066 ≤ c.toNat && c.toNat ≤ 0x2069)

/-- The name in a lease, without control characters; `*` stands for none. -/
def hostname (value : List Char) : Option String :=
  let name := within MAX_NAME (value.filter fun c => !is_control c && !is_direction_mark c)
  if name ≠ [] ∧ name ≠ ['*'] then some (String.ofList name) else none

/-- One line of a lease file. -/
def lease (now : ℕ) (lan : LanContext) (line : List Char) : Option LanDevice :=
  match split_ascii_whitespace line with
  | [expires, mac, ip, name, _] => do
    let expires ← parse_unsigned 10 (2 ^ 64 - 1) expires
    let mac ← parse_mac mac
    let ip ← IpAddr.parse (String.ofList ip)
    if (expires ≠ 0 ∧ expires ≤ now) ∨ ip.is_ipv6 ∨ in_lan lan ip = false then none
    else some ⟨mac, hostname name, [ip]⟩
  | _ => none

/-- A lease file, unless it is too large. -/
def leases (text : String) (now : ℕ) (lan : LanContext) : Option (List LanDevice) :=
  if len text ≤ MAX_BYTES ∧ (lines text).length ≤ MAX_ROWS then
    some ((lines text).filterMap (lease now lan))
  else none

def as_str : Json.Value → Option String
  | .string s => some s
  | _ => none

/-- A state of the neighbour table in which the address is not to be trusted. -/
def unreachable (state : Json.Value) : Bool :=
  match as_str state with
  | none => true
  | some s => to_ascii_lowercase s = "failed" || to_ascii_lowercase s = "incomplete"

/-- A neighbour on the device of the LAN, unless its address is not to be trusted. -/
def neighbor (lan : LanContext) (entry : Json.Value) : Option LanDevice := do
  match entry.get "dev" with
  | none => pure ()
  | some dev => if (← as_str dev) ≠ lan.device then none else pure ()
  match ← entry.get "state" with
  | .array states => if states = [] ∨ states.any unreachable then none else pure ()
  | _ => none
  let ip ← IpAddr.parse (← as_str (← entry.get "dst"))
  let mac ← parse_mac (← as_str (← entry.get "lladdr")).toList
  if in_lan lan ip then some ⟨mac, none, [ip]⟩ else none

/-- What `ip -j neigh` prints. -/
def neighbors (text : String) (lan : LanContext) : Option (List LanDevice) := do
  if MAX_BYTES < len text then none
  match ← Json.from_str text with
  | .array entries =>
    if MAX_ROWS < entries.length then none else some (entries.filterMap (neighbor lan))
  | _ => none

/-- The section names may hold these characters. -/
def is_section_char (c : Char) : Bool :=
  is_ascii_alphanumeric c || c ∈ ['.', '_', '@', '[', ']', '-']

/-- The `leasefile` option of each dnsmasq section, if it has one. -/
def lease_options (text : String) : Option (List (Option (List Char))) :=
  let entries := (lines text).filterMap (split_once '=')
  let sections := (entries.filter fun entry =>
    entry.2 = "dnsmasq".toList || entry.2 = "'dnsmasq'".toList).map Prod.fst
  if ¬ (len text ≤ MAX_BYTES ∧ (lines text).length ≤ MAX_ROWS) ∨ MAX_FILES < sections.length ∨
      ¬ sections.all (fun key => (strip_start key "dhcp.".toList).isSome &&
        key.all is_section_char) then none
  else
    let options := sections.map fun key =>
      let option := key ++ ".leasefile".toList
      if entries.any fun entry => entry.1 = option then some option else none
    some (if options = [] then [none] else options)

/-- What the local commands print; `none` is a failure. -/
structure Commands where
  uci_show : Option String
  uci_get : List Char → Option String
  cat : String → Option String
  ip_neigh : Option String
  /-- `none`: the clock is before the epoch -/
  now : Option ℕ

/-- The path of a lease file. -/
def lease_path (commands : Commands) (option : Option (List Char)) : Option String := do
  let path ← match option with
    | some option => commands.uci_get option
    | none => some FALLBACK
  let path := trim path
  if path.toList.head? = some '/' ∧ len path ≤ 4096 ∧ ¬ path.toList.any is_control then some path
  else none

/-- The lease files that `uci` names, or the fallback. -/
def lease_choices (commands : Commands) : List (Option (List Char)) :=
  ((commands.uci_show.bind lease_options)).getD [none]

/-- The lease files, each one once. -/
def lease_paths (commands : Commands) : List String :=
  dedup (((lease_choices commands).filterMap (lease_path commands)).mergeSort (· ≤ ·))

/-- The rows of each source, in the order of the calls; `none` if it failed. -/
def sources (lan : LanContext) (commands : Commands) : List (Option (List LanDevice)) :=
  ((lease_paths commands).map fun path => do
      let text ← commands.cat path
      let now ← commands.now
      leases text now lan) ++
    [do neighbors (← commands.ip_neigh) lan]

/-- The inventory: every source is read, and what fails is left out. -/
def list (exclusions : List MacAddress) (lan : LanContext) (commands : Commands) :
    LanDeviceInventory :=
  let rows := (sources lan commands).filterMap id
  let failed := (commands.uci_show.bind lease_options).isNone ||
    (lease_choices commands).any (fun option => (lease_path commands option).isNone) ||
    (sources lan commands).any Option.isNone
  { devices := rows.foldl merge (excluded_devices exclusions)
    discovery := if rows = [] then .unavailable else if failed then .partly else .complete }

/-! ## What is known about a device -/

/-- The names that rows give to a hardware address. -/
def Names (rows : List LanDevice) (mac : MacAddress) : Set String :=
  { name | ∃ row ∈ rows, row.mac = mac ∧ row.name = some name }

/-- A device has the least of its names, and all of its addresses in order. -/
structure Summarizes (rows : List LanDevice) (d : LanDevice) : Prop where
  named : ∀ name, d.name = some name → IsLeast (Names rows d.mac) name
  unnamed : d.name = none → Names rows d.mac = ∅
  sorted : d.addresses.Pairwise (· < ·)
  addresses : ∀ ip, ip ∈ d.addresses ↔ ∃ row ∈ rows, row.mac = d.mac ∧ ip ∈ row.addresses

/-- The inventory over the excluded devices and the rows of all sources. -/
structure Inventory (exclusions : List MacAddress) (rows devices : List LanDevice) : Prop where
  order : Ordered.Increasing LanDevice.key devices
  macs : ∀ mac, (∃ d ∈ devices, d.mac = mac) ↔ mac ∈ exclusions ∨ ∃ row ∈ rows, row.mac = mac
  summary : ∀ d ∈ devices, Summarizes rows d

theorem exists_mac_iff {devices : List LanDevice} {mac : MacAddress} :
    (∃ d ∈ devices, d.mac = mac) ↔ ∃ d ∈ devices, d.key = mac.bits.toNat :=
  exists_congr fun _ => and_congr_right fun _ => ⟨fun h => h ▸ rfl, mac_eq_of_bits⟩

section

variable {exclusions exclusions' : List MacAddress} {rows rows' devices devices' : List LanDevice}
  {d d' row : LanDevice} {mac : MacAddress}

theorem mem_names_concat {name : String} : name ∈ Names (rows ++ [row]) mac ↔
    name ∈ Names rows mac ∨ row.mac = mac ∧ row.name = some name := by
  simp [Names, or_and_right, exists_or]

theorem names_concat_of_ne (h : row.mac ≠ mac) : Names (rows ++ [row]) mac = Names rows mac := by
  ext name
  rw [mem_names_concat]
  exact ⟨fun hn => hn.resolve_right fun hr => h hr.1, .inl⟩

theorem merge_name_spec (h : Summarizes rows d) (hm : row.mac = d.mac) :
    (∀ name, merge_name row.name d.name = some name →
      IsLeast (Names (rows ++ [row]) d.mac) name) ∧
    (merge_name row.name d.name = none → Names (rows ++ [row]) d.mac = ∅) := by
  cases hr : row.name with
  | none =>
    have hsame : Names (rows ++ [row]) d.mac = Names rows d.mac := by
      ext name
      rw [mem_names_concat, hr]
      simp
    rw [hsame]
    exact ⟨h.named, h.unnamed⟩
  | some new =>
    have hnames : ∀ name, name ∈ Names (rows ++ [row]) d.mac ↔
        name ∈ Names rows d.mac ∨ name = new := by
      intro name
      rw [mem_names_concat, hr, Option.some.injEq, and_iff_right hm, eq_comm (a := new)]
    cases ho : d.name with
    | none =>
      have hno := h.unnamed ho
      refine ⟨fun name he => ?_, fun he => nomatch he⟩
      cases he
      refine ⟨(hnames new).mpr (.inr rfl), fun name hn => ?_⟩
      rw [hnames, hno] at hn
      exact (hn.resolve_left (Set.notMem_empty name)).ge
    | some old =>
      have hleast := h.named old ho
      rw [merge_name]
      split_ifs with hlt
      · refine ⟨fun name he => ?_, fun he => nomatch he⟩
        cases he
        refine ⟨(hnames new).mpr (.inr rfl), fun name hn => ?_⟩
        rcases (hnames name).mp hn with hn | rfl
        · exact hlt.le.trans (hleast.2 hn)
        · exact le_rfl
      · refine ⟨fun name he => ?_, fun he => nomatch he⟩
        cases he
        refine ⟨(hnames old).mpr (.inl hleast.1), fun name hn => ?_⟩
        rcases (hnames name).mp hn with hn | rfl
        · exact hleast.2 hn
        · exact not_lt.mp hlt

/-- **A row about a device** is taken into its summary. -/
theorem Summarizes.merge (h : Summarizes rows d) (hm : row.mac = d.mac) :
    Summarizes (rows ++ [row]) (merge_device row d) := by
  obtain ⟨hnamed, hunnamed⟩ := merge_name_spec h hm
  refine ⟨hnamed, hunnamed, ?_, fun ip => ?_⟩
  · have hsorted : ((d.addresses ++ row.addresses).mergeSort (· ≤ ·)).Pairwise (· ≤ ·) :=
      List.pairwise_mergeSort' (· ≤ ·) _
    exact (pairwise_dedup (fun _ _ => le_antisymm) hsorted).imp fun h => lt_of_le_of_ne h.1 h.2
  · simp only [merge_device]
    rw [mem_dedup, List.mem_mergeSort, List.mem_append, h.addresses]
    simp [hm, or_and_right, exists_or]

theorem Summarizes.other (h : Summarizes rows d) (hm : row.mac ≠ d.mac) :
    Summarizes (rows ++ [row]) d := by
  refine ⟨?_, ?_, h.sorted, fun ip => ?_⟩
  · rw [names_concat_of_ne hm]
    exact h.named
  · rw [names_concat_of_ne hm]
    exact h.unnamed
  · rw [h.addresses]
    simp [hm, or_and_right, exists_or]

theorem summarizes_unknown (h : ∀ row ∈ rows, row.mac ≠ mac) : Summarizes rows (unknown mac) := by
  refine ⟨fun name he => (nomatch he), fun _ => ?_, List.Pairwise.nil, fun ip => ?_⟩
  · exact Set.eq_empty_iff_forall_notMem.mpr fun name ⟨row, hr, hm, _⟩ => h row hr hm
  · exact ⟨fun hm => (nomatch hm), fun ⟨row, hr, hm, _⟩ => absurd hm (h row hr)⟩

/-- **One row** keeps the inventory complete and in order. -/
theorem merge_row_spec (h : Inventory exclusions rows devices) (row : LanDevice) :
    Inventory exclusions (rows ++ [row]) (merge_row devices row) := by
  have hmem : ∀ {d}, d ∈ merge_row devices row ↔ _ :=
    @Ordered.mem_upsert _ _ _ _ (unknown row.mac) (merge_device row) devices h.order
  -- what is changed is about the row's device
  have htarget : ∀ t, Ordered.Target LanDevice.key (unknown row.mac) devices t →
      row.mac = t.mac ∧ Summarizes rows t := by
    rintro t (⟨ht, he⟩ | ⟨rfl, hno⟩)
    · exact ⟨(key_eq.mp he).symm, h.summary t ht⟩
    · refine ⟨rfl, summarizes_unknown fun r hr hm => ?_⟩
      obtain ⟨d, hd, he⟩ := (h.macs row.mac).mpr (.inr ⟨r, hr, hm⟩)
      exact hno d hd (key_eq.mpr he)
  refine ⟨Ordered.increasing_upsert h.order fun _ => rfl, fun mac => ?_, fun d hd => ?_⟩
  · rw [exists_mac_iff, merge_row, Ordered.keys_upsert h.order (f := merge_device row) (fun _ => rfl), ← exists_mac_iff,
      h.macs, or_assoc]
    simp only [List.mem_append, List.mem_singleton, or_and_right, exists_or, exists_eq_left]
    exact or_congr_right (or_congr_right ⟨mac_eq_of_bits, fun h => h ▸ rfl⟩)
  · rcases hmem.mp hd with ⟨t, ht, rfl⟩ | ⟨hd, hne⟩
    · exact (htarget t ht).2.merge (htarget t ht).1
    · exact (h.summary d hd).other fun he => hne (key_eq.mpr he.symm)

theorem merge_spec (h : Inventory exclusions rows devices) (rows' : List LanDevice) :
    Inventory exclusions (rows ++ rows') (merge devices rows') := by
  induction rows' generalizing rows devices with
  | nil => simpa [merge] using h
  | cons row rows' ih =>
    have hrest := ih (merge_row_spec h row)
    rwa [List.append_assoc, List.singleton_append] at hrest

theorem merges_spec (h : Inventory exclusions rows devices) (lists : List (List LanDevice)) :
    Inventory exclusions (rows ++ lists.flatten) (lists.foldl merge devices) := by
  induction lists generalizing rows devices with
  | nil => simpa using h
  | cons list lists ih =>
    have hrest := ih (merge_spec h list)
    rwa [List.append_assoc, ← List.flatten_cons] at hrest

theorem excluded_devices_spec (exclusions : List MacAddress) :
    Inventory exclusions [] (excluded_devices exclusions) := by
  induction exclusions using List.reverseRecOn with
  | nil => exact ⟨List.Pairwise.nil, by simp [excluded_devices], fun d hd => nomatch hd⟩
  | append_singleton exclusions mac ih =>
    have hstep : excluded_devices (exclusions ++ [mac]) =
        Ordered.upsert LanDevice.key (unknown mac) (fun device => unknown device.mac)
          (excluded_devices exclusions) := List.foldl_concat ..
    rw [hstep]
    refine ⟨Ordered.increasing_upsert ih.order fun _ => rfl, fun mac' => ?_, fun d hd => ?_⟩
    · rw [exists_mac_iff, Ordered.keys_upsert ih.order (f := fun device => unknown device.mac)
        (fun _ => rfl), ← exists_mac_iff, ih.macs]
      simp only [List.not_mem_nil, false_and, exists_false, or_false, List.mem_append,
        List.mem_singleton]
      exact or_congr_right ⟨fun h => (mac_eq_of_bits h).symm, fun h => h ▸ rfl⟩
    · rcases (Ordered.mem_upsert ih.order).mp hd with ⟨t, -, rfl⟩ | ⟨hd, -⟩
      · exact summarizes_unknown fun row hr => nomatch hr
      · exact ih.summary d hd

/-- **The inventory is determined** by the sets of excluded devices and rows. -/
theorem Inventory.eq (h : Inventory exclusions rows devices)
    (h' : Inventory exclusions' rows' devices') (he : ∀ mac, mac ∈ exclusions ↔ mac ∈ exclusions')
    (hr : ∀ row, row ∈ rows ↔ row ∈ rows') : devices = devices' := by
  have hsame : ∀ d d', Summarizes rows d → Summarizes rows' d' → d.mac = d'.mac → d = d' := by
    intro d d' hd hd' hm
    have hnames : Names rows d.mac = Names rows' d'.mac := by
      ext name
      simp only [Names, Set.mem_ofPred_eq, hr, hm]
    have hname : d.name = d'.name := by
      cases hn : d.name with
      | none =>
        cases hn' : d'.name with
        | none => rfl
        | some name =>
          have hmem := (hd'.named name hn').1
          rw [← hnames, hd.unnamed hn] at hmem
          exact absurd hmem (Set.notMem_empty name)
      | some name =>
        cases hn' : d'.name with
        | none =>
          have hmem := (hd.named name hn).1
          rw [hnames, hd'.unnamed hn'] at hmem
          exact absurd hmem (Set.notMem_empty name)
        | some name' =>
          have hleast := hd.named name hn
          rw [hnames] at hleast
          rw [hleast.unique (hd'.named name' hn')]
    have haddr : d.addresses = d'.addresses := by
      refine List.Pairwise.eq_of_mem_iff hd.sorted hd'.sorted fun ip => ?_
      rw [hd.addresses, hd'.addresses]
      simp only [hr, hm]
    cases d
    cases d'
    simp_all
  have hsub : ∀ {exclusions exclusions' rows rows' devices devices'},
      Inventory exclusions rows devices → Inventory exclusions' rows' devices' →
      (∀ mac, mac ∈ exclusions → mac ∈ exclusions') → (∀ row, row ∈ rows → row ∈ rows') →
      ∀ d ∈ devices, ∃ d' ∈ devices', d'.mac = d.mac := by
    intro exclusions exclusions' rows rows' devices devices' h h' he hr d hd
    refine (h'.macs d.mac).mpr (((h.macs d.mac).mp ⟨d, hd, rfl⟩).imp (he _) ?_)
    exact fun ⟨row, hm, hmac⟩ => ⟨row, hr row hm, hmac⟩
  refine Ordered.Increasing.ext h.order h'.order fun d => ⟨fun hd => ?_, fun hd => ?_⟩
  · obtain ⟨d', hd', hm⟩ := hsub h h' (fun mac => (he mac).mp) (fun row => (hr row).mp) d hd
    rwa [hsame d d' (h.summary d hd) (h'.summary d' hd') hm.symm]
  · obtain ⟨d', hd', hm⟩ := hsub h' h (fun mac => (he mac).mpr) (fun row => (hr row).mpr) d hd
    rwa [← hsame d' d (h.summary d' hd') (h'.summary d hd) hm]

end

/-- **The device inventory**, whatever the order and number of the rows and the sources they come
from: one entry for each device seen or excluded, in order, with the least of its names and all of
its addresses; and every excluded device is in it, also when every source fails. -/
theorem list_inventory (lan : LanContext) :
    (∀ (exclusions : List MacAddress) (lists : List (List LanDevice)),
      Inventory exclusions lists.flatten (lists.foldl merge (excluded_devices exclusions))) ∧
    (∀ (exclusions exclusions' : List MacAddress) (lists lists' : List (List LanDevice)),
      (∀ mac, mac ∈ exclusions ↔ mac ∈ exclusions') →
      (∀ row, row ∈ lists.flatten ↔ row ∈ lists'.flatten) →
      lists.foldl merge (excluded_devices exclusions) =
        lists'.foldl merge (excluded_devices exclusions')) ∧
    ∀ (exclusions : List MacAddress) (commands : Commands),
      (list exclusions lan commands).devices =
        ((sources lan commands).filterMap id).foldl merge (excluded_devices exclusions) ∧
      ∀ mac ∈ exclusions, ∃ d ∈ (list exclusions lan commands).devices, d.mac = mac := by
  have hall : ∀ (exclusions : List MacAddress) (lists : List (List LanDevice)),
      Inventory exclusions lists.flatten (lists.foldl merge (excluded_devices exclusions)) :=
    fun exclusions lists => merges_spec (excluded_devices_spec exclusions) lists
  refine ⟨hall, fun exclusions exclusions' lists lists' he hr => ?_, fun exclusions commands => ?_⟩
  · exact (hall exclusions lists).eq (hall exclusions' lists') he hr
  · refine ⟨rfl, fun mac hm => ?_⟩
    exact ((hall exclusions _).macs mac).mpr (.inl hm)

/-! ### One device in two sources -/

def sampleMac : MacAddress := ⟨0x020000000001, by decide, by decide⟩

def leaseRow : LanDevice := ⟨sampleMac, some "laptop", [.v4 (Ipv4.addr 192 168 1 2)]⟩

def neighborRow : LanDevice := ⟨sampleMac, none, [.v4 (Ipv4.addr 192 168 1 3)]⟩

/-- `list_inventory` for rows in another order, one of them given twice. -/
theorem list_inventory_sample :
    [[leaseRow], [neighborRow]].foldl merge (excluded_devices [sampleMac]) =
      [[neighborRow, leaseRow], [leaseRow]].foldl merge (excluded_devices [sampleMac]) := by
  refine (list_inventory ⟨"br-lan", Ipv4.addr 192 168 1 1, ⟨Ipv4.addr 192 168 1 0, 24, by
    norm_num⟩⟩).2.1 _ _ _ _ (fun _ => Iff.rfl) fun row => ?_
  simp [or_comm]

end Devices

end Gofro.Agent

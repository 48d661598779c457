import GofroRouter.Agent.Geodata.Select

/-!
# Preparing the GeoIP catalog

`deploy/prepare-geodata.py`: the catalog of all countries, with the IPv4 networks of every entry
merged and everything else left out. The script has a protobuf reader of its own;
`ipaddress.collapse_addresses` is a parameter.

* `for_fields`, `prepare`: the script.
* `sim_for_fields`: a loop over its fields reads the fields of the wire format.
* `Cooks.spec`: what the script takes from the bytes of an entry.
* **`prepare_spec`**: the prepared catalog has one entry for every entry of the original.
-/

namespace Gofro.Deploy

open Agent.Geodata (netOf)

/-! ## The script -/

/-- An integer for wire type 0, bytes for the others. -/
inductive Value
  | integer (v : ℕ)
  | bytes (bs : List UInt8)

/-- Groups of seven bits, the lowest one first. -/
def varint (value : ℕ) : List UInt8 :=
  if value < 128 then [UInt8.ofNat value]
  else UInt8.ofNat ((value &&& 127) ||| 128) :: varint (value >>> 7)
termination_by value
decreasing_by rw [Nat.shiftRight_eq_div_pow]; omega

/-- The last `n` rounds of the loop in `read_varint`. -/
def read_varint_from : ℕ → ℕ → ℕ → List UInt8 → Except String (ℕ × List UInt8)
  | 0, _, _, _ => .error "protobuf integer overflow"
  | _ + 1, _, _, [] => .error "truncated protobuf integer"
  | n + 1, shift, value, byte :: data =>
    if shift = 63 ∧ 1 < byte.toNat then .error "protobuf integer overflow"
    else
      let value := value ||| (byte.toNat &&& 127) <<< shift
      if byte.toNat < 128 then .ok (value, data) else read_varint_from n (shift + 7) value data

/-- At most ten bytes. -/
def read_varint (data : List UInt8) : Except String (ℕ × List UInt8) := read_varint_from 10 0 0 data

/-- The length of a field that is not an integer. -/
def read_length (wire : ℕ) (data : List UInt8) : Except String (ℕ × List UInt8) :=
  if wire = 2 then read_varint data else .ok (if wire = 1 then 8 else 4, data)

/-- One round of `fields`: number, wire type and value, and the bytes after the field. -/
def next_field (data : List UInt8) : Except String ((ℕ × ℕ × Value) × List UInt8) := do
  let (key, data) ← read_varint data
  let number := key >>> 3
  let wire := key &&& 7
  if ¬ (1 ≤ number ∧ number ≤ 0x1fffffff) then .error "invalid protobuf field number"
  else if wire = 0 then
    let (value, data) ← read_varint data
    return ((number, wire, .integer value), data)
  else if wire = 1 ∨ wire = 2 ∨ wire = 5 then
    let (length, data) ← read_length wire data
    if data.length < length then .error "truncated protobuf field"
    else .ok ((number, wire, .bytes (data.take length)), data.drop length)
  else .error "unsupported protobuf wire type"

/-- At most `n` rounds of `for number, wire, value in fields(data)`. -/
def for_fields_upto {σ : Type} (body : σ → ℕ → ℕ → Value → Except String σ) :
    ℕ → List UInt8 → σ → Except String σ
  | _, [], s => .ok s
  | 0, _ :: _, _ => .error ""
  | n + 1, b :: data, s => do
    let ((number, wire, value), data) ← next_field (b :: data)
    for_fields_upto body n data (← body s number wire value)

/-- The loop over the fields of a message; every field takes a byte. -/
def for_fields {σ : Type} (body : σ → ℕ → ℕ → Value → Except String σ) (data : List UInt8) (s : σ) :
    Except String σ := for_fields_upto body data.length data s

/-- A field with bytes in it. -/
def message (number : ℕ) (data : List UInt8) : List UInt8 :=
  varint (number <<< 3 ||| 2) ++ varint data.length ++ data

/-- `address` and `prefix` of a CIDR. -/
def cidr_field (s : List UInt8 × ℕ) (number wire : ℕ) (value : Value) :
    Except String (List UInt8 × ℕ) :=
  if number = 1 then
    match wire, value with
    | 2, .bytes bs => .ok (bs, s.2)
    | _, _ => .error "invalid IP address"
  else if number = 2 then
    match wire, value with
    | 0, .integer v => .ok (s.1, v)
    | _, _ => .error "invalid IP prefix"
  else .ok s

/-- An entry as far as it has been read, and the number of its CIDRs. -/
structure Entry where
  tag : List UInt8
  inverse : Bool
  networks : List Ipv4.Net
  before : ℕ

/-- One field of an entry. -/
def entry_field (s : Entry) (number wire : ℕ) (value : Value) : Except String Entry :=
  if number = 1 then
    match wire, value with
    | 2, .bytes bs =>
      if (Text.from_utf8 bs).isSome then .ok { s with tag := bs } else .error "invalid utf-8"
    | _, _ => .error "invalid GeoIP tag"
  else if number = 3 then
    match wire, value with
    | 0, .integer v => .ok { s with inverse := v ≠ 0 }
    | _, _ => .error "invalid inverse match"
  else if number = 2 then
    match wire, value with
    | 2, .bytes bs => do
      let (address, prefix_len) ← for_fields cidr_field bs ([], 0)
      return { s with
        networks := s.networks ++ ((netOf address prefix_len).map Ipv4.Net.trunc).toList
        before := s.before + 1 }
    | _, _ => .error "invalid GeoIP CIDR"
  else .ok s

/-- `network_address.packed` -/
def packed (ip : Ipv4.Addr) : List UInt8 :=
  [24, 16, 8, 0].map fun shift => UInt8.ofNat (ip.toNat >>> shift % 256)

/-- A network as a message; a prefix of 0 is left out. -/
def render_cidr (network : Ipv4.Net) : List UInt8 :=
  message 1 (packed network.network) ++
    if network.prefix_len ≠ 0 then varint (2 <<< 3) ++ varint network.prefix_len else []

section

variable (collapse_addresses : List Ipv4.Net → List Ipv4.Net)

/-- The prepared entry. -/
def cooked (entry : Entry) : List UInt8 :=
  message 1 entry.tag ++
    if entry.inverse then varint (3 <<< 3) ++ varint 1
    else (collapse_addresses entry.networks).flatMap fun network => message 2 (render_cidr network)

/-- The number of networks of the prepared entry. -/
def after (entry : Entry) : ℕ :=
  if entry.inverse then 0 else (collapse_addresses entry.networks).length

/-- The output so far, and the numbers of CIDRs before and after. -/
structure Output where
  bytes : List UInt8
  before : ℕ
  after : ℕ

/-- One field of the catalog: an entry is read and written anew. -/
def catalog_field (s : Output) (number wire : ℕ) (value : Value) : Except String Output :=
  if number ≠ 1 then .ok s
  else match wire, value with
    | 2, .bytes bs => do
      let entry ← for_fields entry_field bs ⟨[], false, [], 0⟩
      return ⟨s.bytes ++ message 1 (cooked collapse_addresses entry), s.before + entry.before,
        s.after + after collapse_addresses entry⟩
    | _, _ => .error "invalid GeoIP entry"

/-- The whole catalog. -/
def prepare (data : List UInt8) : Except String Output :=
  for_fields (catalog_field collapse_addresses) data ⟨[], 0, 0⟩

end

/-! ## Encoding -/

theorem varint_eq_putUpTo {n v : ℕ} (h : v < 128 ^ (n + 1)) : varint v = Wire.putUpTo n v := by
  induction n generalizing v with
  | zero =>
    rw [varint, if_pos (by simpa using h)]
    rfl
  | succ n ih =>
    rw [varint, Wire.putUpTo]
    split_ifs with hv
    · rfl
    · have hlt : v / 128 < 128 ^ (n + 1) := by
        rw [Nat.div_lt_iff_lt_mul (by norm_num), ← pow_succ]
        exact h
      have hbyte : (v &&& 127) ||| 128 = v % 128 + 128 := by
        rw [show (127 : ℕ) = 2 ^ 7 - 1 from rfl, Nat.and_two_pow_sub_one_eq_mod, Nat.or_comm,
          Nat.add_comm]
        exact (Nat.two_pow_add_eq_or_of_lt (i := 7) (Nat.mod_lt _ (by norm_num)) 1).symm
      rw [hbyte, Nat.shiftRight_eq_div_pow]
      exact congrArg _ (ih hlt)

theorem varint_eq_put {v : ℕ} (h : v < 2 ^ 64) : varint v = Wire.put v :=
  varint_eq_putUpTo (lt_trans h (by norm_num))

theorem message_eq {number : ℕ} (hn : number < 2 ^ 32) {data : List UInt8}
    (hd : data.length < 2 ^ 64) : message number data = Wire.putField (number, .bytes data) := by
  have hkey : number <<< 3 ||| 2 = number * 8 + 2 := by
    rw [Nat.shiftLeft_eq, Nat.mul_comm]
    exact (Nat.two_pow_add_eq_or_of_lt (i := 3) (b := 2) (by norm_num) number).symm
  rw [message, hkey, varint_eq_put (by omega), varint_eq_put hd]
  rfl

/-! ## Reading -/

/-- The value that the script keeps of a field. -/
inductive Stands : ℕ × ℕ × Value → Wire.Field → Prop
  | integer (n v : ℕ) : Stands (n, 0, .integer v) (n, .integer v)
  | bytes (n : ℕ) (bs : List UInt8) : Stands (n, 2, .bytes bs) (n, .bytes bs)
  | fixed (n wire : ℕ) (bs : List UInt8) (h : wire = 1 ∨ wire = 5) :
    Stands (n, wire, .bytes bs) (n, .fixed)

theorem sim_read_varint_from {n shift value : ℕ} (hn : shift + 7 * n = 70)
    (hv : value < 2 ^ shift) (data : List UInt8) :
    Sim Eq (read_varint_from n shift value data)
      (Wire.resume shift value (Wire.varint n data)) := by
  induction n generalizing shift value data with
  | zero => exact .error _
  | succ n ih =>
    cases data with
    | nil => exact .error _
    | cons b data =>
      rw [read_varint_from, show (127 : ℕ) = 0x7f from rfl, Wire.byte_low, Wire.or_shift hv]
      by_cases hc : shift < 63 ∨ b.toNat ≤ 1
      · rw [if_neg (by omega)]
        by_cases hb : b.toNat < 128
        · rw [Wire.resume_last hn hv hb, if_pos hc]
          simp only [if_pos hb]
          exact .ok rfl
        · rw [Wire.resume_more hn hb, if_pos hc]
          simp only [if_neg hb]
          exact ih (by omega) (Wire.value_lt hv) data
      · rw [if_pos (by omega)]
        by_cases hb : b.toNat < 128
        · rw [Wire.resume_last hn hv hb, if_neg hc]
          exact .error _
        · rw [Wire.resume_more hn hb, if_neg hc]
          exact .error _

theorem sim_read_varint (data : List UInt8) : Sim Eq (read_varint data) (Wire.u64 data) := by
  rw [← Wire.resume_zero]
  exact sim_read_varint_from rfl (by norm_num) data

/-- **The script reads the field that the bytes encode.** -/
theorem sim_next_field (data : List UInt8) :
    Sim (fun a b => Stands a.1 b.1 ∧ a.2 = b.2) (next_field data) (Wire.field data) := by
  refine (sim_read_varint data).bind ?_
  rintro ⟨key, data⟩ _ rfl
  have hnumber : key >>> 3 = key / 8 := Nat.shiftRight_eq_div_pow key 3
  have hwire : key &&& 7 = key % 8 := Nat.and_two_pow_sub_one_eq_mod _ 3
  have htake : ∀ (n wire : ℕ) (data : List UInt8) (w : List UInt8 → Wire.Value),
      Stands (key / 8, wire, .bytes (data.take n)) (key / 8, w (data.take n)) →
      Sim (fun a b => Stands a.1 b.1 ∧ a.2 = b.2)
        (if data.length < n then .error "truncated protobuf field"
          else .ok ((key / 8, wire, Value.bytes (data.take n)), data.drop n) : Except String _)
        ((Wire.split n data).map fun p => ((key / 8, w p.1), p.2)) := by
    intro n wire data w hw
    rw [Wire.split]
    by_cases h : data.length < n
    · rw [if_pos h, if_neg (by omega)]
      exact .error _
    · rw [if_neg h, if_pos (by omega)]
      exact .ok ⟨hw, rfl⟩
  simp only [hnumber, hwire]
  by_cases hn : 1 ≤ key / 8 ∧ key / 8 ≤ 0x1fffffff
  · rw [if_neg (not_not.mpr hn), if_pos hn]
    have h8 : key % 8 < 8 := Nat.mod_lt _ (by norm_num)
    generalize key % 8 = wire at h8
    interval_cases wire
    · simp only [if_true, Wire.payload, Option.map_map]
      rw [Option.map_eq_bind]
      refine (sim_read_varint data).bind ?_
      rintro ⟨v, rest⟩ _ rfl
      exact .ok ⟨.integer _ v, rfl⟩
    · simp only [Wire.payload, Option.map_map]
      exact htake 8 1 data (fun _ => .fixed) (.fixed _ 1 _ (.inl rfl))
    · show Sim _ (read_varint data >>= _) (((Wire.u64 data).bind _).map _)
      rw [Option.map_bind]
      refine (sim_read_varint data).bind ?_
      rintro ⟨n, rest⟩ _ rfl
      simp only [Function.comp_def, Option.map_map]
      exact htake n 2 rest .bytes (.bytes _ _)
    · exact .error _
    · exact .error _
    · simp only [Wire.payload, Option.map_map]
      exact htake 4 5 data (fun _ => .fixed) (.fixed _ 5 _ (.inr rfl))
    · exact .error _
    · exact .error _
  · rw [if_pos hn, if_neg hn]
    exact .error _

/-- **A loop over the fields** reads the fields of its bytes, if its body handles one field. -/
theorem sim_for_fields_upto {σ τ : Type} {R : σ → τ → Prop}
    {body : σ → ℕ → ℕ → Value → Except String σ} {ref : τ → Wire.Field → Option τ}
    (hbody : ∀ s t number wire value f, R s t → Stands (number, wire, value) f →
      Sim R (body s number wire value) (ref t f))
    {n : ℕ} {data : List UInt8} (hn : data.length ≤ n) {s : σ} {t : τ} (h : R s t) :
    Sim R (for_fields_upto body n data s)
      ((Wire.fields data).bind fun fs => fs.foldlM ref t) := by
  induction n generalizing data s t with
  | zero =>
    rw [List.length_eq_zero_iff.mp (Nat.le_zero.mp hn)]
    exact .ok h
  | succ n ih =>
    cases data with
    | nil => exact .ok h
    | cons b data =>
      rw [Wire.fields_foldlM ref t (List.cons_ne_nil b data), for_fields_upto]
      have hfield := sim_next_field (b :: data)
      cases hw : Wire.field (b :: data) with
      | none =>
        rw [hw] at hfield
        obtain ⟨e, he⟩ := hfield.isError
        rw [he]
        exact .error e
      | some p =>
        rw [hw] at hfield
        obtain ⟨⟨⟨number, wire, value⟩, rest⟩, he, hs, hrest⟩ := hfield.isOk
        have hlen := (Wire.field_suffix hw).2
        simp only at hrest hs
        subst hrest
        rw [he]
        exact (hbody s t number wire value p.1 h hs).bind fun s t h =>
          ih (by simp only [List.length_cons] at hlen hn; omega) h

theorem sim_for_fields {σ τ : Type} {R : σ → τ → Prop}
    {body : σ → ℕ → ℕ → Value → Except String σ} {ref : τ → Wire.Field → Option τ}
    (hbody : ∀ s t number wire value f, R s t → Stands (number, wire, value) f →
      Sim R (body s number wire value) (ref t f))
    (data : List UInt8) {s : σ} {t : τ} (h : R s t) :
    Sim R (for_fields body data s) ((Wire.fields data).bind fun fs => fs.foldlM ref t) :=
  sim_for_fields_upto hbody le_rfl h

/-! ## Entries -/

open Agent.Geodata (cidrStep address4 entryOf entriesOf fieldsOf cidrOf cidrOf_eq foldlM_cidrStep
  lastText lastEntry ipStep headerStep entryStep)

/-- `entry_field` on the bytes of the field. -/
def cookStep (s : Entry) : Wire.Field → Option Entry
  | (1, .bytes bs) => if (Text.from_utf8 bs).isSome then some { s with tag := bs } else none
  | (3, .integer v) => some { s with inverse := v ≠ 0 }
  | (2, .bytes bs) =>
    ((Wire.fields bs).bind fun fs => fs.foldlM cidrStep (none, 0)).map fun c =>
      { s with
        networks := s.networks ++ ((c.1.bind (netOf · c.2)).map Ipv4.Net.trunc).toList
        before := s.before + 1 }
  | (1, _) => none
  | (2, _) => none
  | (3, _) => none
  | _ => some s

/-- The address so far, and the address if it has four bytes. -/
def SameCidr (a : List UInt8 × ℕ) (b : Option (List UInt8) × ℕ) : Prop :=
  b.1 = (if a.1.length = 4 then some a.1 else none) ∧ b.2 = a.2

theorem sim_cidr_field (s : List UInt8 × ℕ) (t : Option (List UInt8) × ℕ) (number wire : ℕ)
    (value : Value) (f : Wire.Field) (h : SameCidr s t) (hf : Stands (number, wire, value) f) :
    Sim SameCidr (cidr_field s number wire value) (cidrStep t f) := by
  unfold cidr_field
  by_cases h₁ : number = 1
  · subst h₁
    cases hf with
    | integer => exact .error _
    | bytes n bs => exact .ok ⟨rfl, h.2⟩
    | fixed n wire bs hw =>
      rw [if_pos rfl]
      rcases hw with rfl | rfl
      · exact .error _
      · exact .error _
  · by_cases h₂ : number = 2
    · subst h₂
      cases hf with
      | integer n v => exact .ok ⟨h.1, rfl⟩
      | bytes => exact .error _
      | fixed n wire bs hw =>
        rcases hw with rfl | rfl
        · exact .error _
        · exact .error _
    · rw [if_neg h₁, if_neg h₂]
      have hs : cidrStep t f = some t := by
        unfold cidrStep
        cases hf <;> split <;> simp_all
      rw [hs]
      exact .ok h

theorem netOf_of_length {bs : List UInt8} (h : bs.length ≠ 4) (p : ℕ) : netOf bs p = none := by
  unfold netOf
  split
  · exact absurd rfl h
  · rfl

theorem sim_entry_field (s : Entry) (number wire : ℕ) (value : Value) (f : Wire.Field)
    (hf : Stands (number, wire, value) f) :
    Sim Eq (entry_field s number wire value) (cookStep s f) := by
  unfold entry_field
  by_cases h₁ : number = 1
  · subst h₁
    cases hf with
    | integer => exact .error _
    | bytes n bs =>
      rw [if_pos rfl]
      simp only [cookStep]
      split_ifs
      · exact .ok rfl
      · exact .error _
    | fixed n wire bs hw =>
      rcases hw with rfl | rfl
      · exact .error _
      · exact .error _
  · by_cases h₃ : number = 3
    · subst h₃
      cases hf with
      | integer => exact .ok rfl
      | bytes => exact .error _
      | fixed n wire bs hw =>
        rcases hw with rfl | rfl
        · exact .error _
        · exact .error _
    · by_cases h₂ : number = 2
      · subst h₂
        cases hf with
        | integer => exact .error _
        | bytes n bs =>
          show Sim Eq (for_fields cidr_field bs ([], 0) >>= _) (Option.map _ _)
          rw [Option.map_eq_bind]
          refine (sim_for_fields sim_cidr_field bs (s := ([], 0)) (t := (none, 0)) ⟨rfl, rfl⟩).bind ?_
          rintro ⟨address, p⟩ ⟨o, q⟩ ⟨ho, hq⟩
          simp only at ho hq
          subst ho hq
          refine .ok ?_
          dsimp only
          split_ifs with h
          · rfl
          · rw [netOf_of_length h]
            rfl
        | fixed n wire bs hw =>
          rcases hw with rfl | rfl
          · exact .error _
          · exact .error _
      · rw [if_neg h₁, if_neg h₃, if_neg h₂]
        have hs : cookStep s f = some s := by
          unfold cookStep
          cases hf <;> split <;> simp_all
        rw [hs]
        exact .ok rfl

/-- The entry that the script reads from these bytes. -/
def Cooks (bs : List UInt8) (entry : Entry) : Prop :=
  ((Wire.fields bs).bind fun fs => fs.foldlM cookStep ⟨[], false, [], 0⟩) = some entry

/-- What the steps add up to. -/
structure Read (fs : List Wire.Field) (entry : Entry) : Prop where
  tag : entry.tag = (Wire.lastBytes 1 fs).getD []
  utf8 : (Text.from_utf8 entry.tag).isSome = true
  inverse : entry.inverse = decide (Wire.lastInteger 3 fs ≠ 0)
  networks : entry.networks = ((Wire.byteStrings 2 fs).filterMap cidrOf).map Ipv4.Net.trunc

theorem foldlM_cookStep {fs : List Wire.Field} {entry : Entry}
    (h : fs.foldlM cookStep ⟨[], false, [], 0⟩ = some entry) : Read fs entry := by
  refine foldlM_invariant (P := Read) (fun fs f s s' hs hf => ?_) ⟨rfl, by decide, rfl, rfl⟩ h
  obtain ⟨htag, hutf8, hinv, hnet⟩ := hs
  unfold cookStep at hf
  split at hf
  · rename_i bs
    split_ifs at hf with hu
    cases hf
    refine ⟨?_, hu, ?_, ?_⟩
    · rw [Wire.lastBytes_concat]; rfl
    · rw [Wire.lastInteger_concat]; exact hinv
    · rw [Wire.byteStrings_concat, List.filterMap_append, List.map_append]
      simpa [Wire.byteStrings] using hnet
  · rename_i v
    cases hf
    refine ⟨?_, hutf8, ?_, ?_⟩
    · rw [Wire.lastBytes_concat]; exact htag
    · rw [Wire.lastInteger_concat]; rfl
    · rw [Wire.byteStrings_concat, List.filterMap_append, List.map_append]
      simpa [Wire.byteStrings] using hnet
  · rename_i bs
    obtain ⟨c, hc, rfl⟩ := Option.map_eq_some_iff.mp hf
    obtain ⟨gs, hg, hc⟩ := Option.bind_eq_some_iff.mp hc
    refine ⟨?_, hutf8, ?_, ?_⟩
    · rw [Wire.lastBytes_concat]; exact htag
    · rw [Wire.lastInteger_concat]; exact hinv
    · rw [foldlM_cidrStep hc, Wire.byteStrings_concat]
      simp only [← cidrOf_eq hg]
      cases hb : cidrOf bs <;> simp [Wire.byteStrings, hb, hnet]
  · cases hf
  · cases hf
  · cases hf
  · rename_i h₁ h₂ h₃ h₄ h₅ h₆
    cases hf
    obtain ⟨m, v | bs⟩ := f
    · have hm : m ≠ 3 := fun h => h₆ _ (by rw [h])
      refine ⟨by rw [Wire.lastBytes_concat]; exact htag, hutf8, ?_, ?_⟩
      · rw [Wire.lastInteger_concat]; simpa [hm] using hinv
      · simpa [Wire.byteStrings] using hnet
    · have hm₁ : m ≠ 1 := fun h => h₄ _ (by rw [h])
      have hm₂ : m ≠ 2 := fun h => h₅ _ (by rw [h])
      refine ⟨?_, hutf8, by rw [Wire.lastInteger_concat]; exact hinv, ?_⟩
      · rw [Wire.lastBytes_concat]; simpa [hm₁] using htag
      · simpa [Wire.byteStrings, hm₂] using hnet
    · refine ⟨by rw [Wire.lastBytes_concat]; exact htag, hutf8,
        by rw [Wire.lastInteger_concat]; exact hinv, ?_⟩
      simpa [Wire.byteStrings] using hnet

theorem Cooks.spec {bs : List UInt8} {entry : Entry} (h : Cooks bs entry) :
    Read (fieldsOf bs) entry := by
  obtain ⟨fs, hfs, h⟩ := Option.bind_eq_some_iff.mp h
  rw [fieldsOf, hfs]
  exact foldlM_cookStep h

/-! ## The catalog -/

section

variable {collapse_addresses : List Ipv4.Net → List Ipv4.Net}

/-- `catalog_field` on the bytes of the field. -/
def catalogStep (collapse_addresses : List Ipv4.Net → List Ipv4.Net) (s : Output)
    (f : Wire.Field) : Option Output :=
  if f.1 ≠ 1 then some s
  else match f.2 with
    | .bytes bs =>
      ((Wire.fields bs).bind fun fs => fs.foldlM cookStep ⟨[], false, [], 0⟩).map fun entry =>
        ⟨s.bytes ++ message 1 (cooked collapse_addresses entry), s.before + entry.before,
          s.after + after collapse_addresses entry⟩
    | _ => none

theorem sim_catalog_field (s : Output) (number wire : ℕ) (value : Value) (f : Wire.Field)
    (hf : Stands (number, wire, value) f) :
    Sim Eq (catalog_field collapse_addresses s number wire value)
      (catalogStep collapse_addresses s f) := by
  unfold catalog_field catalogStep
  cases hf with
  | integer =>
    split_ifs
    · exact .ok rfl
    · exact .error _
  | bytes n bs =>
    split_ifs
    · exact .ok rfl
    · show Sim Eq (for_fields entry_field bs _ >>= _) (Option.map _ _)
      rw [Option.map_eq_bind]
      refine (sim_for_fields (R := Eq) ?_ bs rfl).bind ?_
      · rintro s _ number wire value f rfl hf
        exact sim_entry_field s number wire value f hf
      · rintro entry _ rfl
        exact .ok rfl
  | fixed n wire bs hw =>
    split_ifs
    · exact .ok rfl
    · rcases hw with rfl | rfl
      · exact .error _
      · exact .error _

/-- **The prepared catalog** has one entry for every entry of the original. -/
theorem prepare_spec {data : List UInt8} {out : Output}
    (h : prepare collapse_addresses data = .ok out) :
    ∃ es, List.Forall₂ Cooks (Wire.byteStrings 1 (fieldsOf data)) es ∧
      out.bytes = es.flatMap fun entry => message 1 (cooked collapse_addresses entry) := by
  have hs : Sim Eq (prepare collapse_addresses data) ((Wire.fields data).bind fun fs =>
      fs.foldlM (catalogStep collapse_addresses) ⟨[], 0, 0⟩) := by
    refine sim_for_fields (R := Eq) ?_ data rfl
    rintro s _ number wire value f rfl hf
    exact sim_catalog_field s number wire value f hf
  rw [h] at hs
  obtain ⟨_, hout, rfl⟩ := hs.isSome
  obtain ⟨fs, hfs, hout⟩ := Option.bind_eq_some_iff.mp hout
  rw [fieldsOf, hfs, Option.getD_some]
  refine foldlM_invariant (P := fun fs (s : Output) =>
    ∃ es, List.Forall₂ Cooks (Wire.byteStrings 1 fs) es ∧
      s.bytes = es.flatMap fun entry => message 1 (cooked collapse_addresses entry))
    (fun fs f s s' hs hf => ?_) ⟨[], .nil, rfl⟩ hout
  obtain ⟨es, hes, hbytes⟩ := hs
  obtain ⟨m, w⟩ := f
  rw [Wire.byteStrings_concat]
  unfold catalogStep at hf
  split_ifs at hf with hm
  · cases hf
    refine ⟨es, ?_, hbytes⟩
    cases w <;> simpa [Wire.byteStrings, show m ≠ 1 from hm] using hes
  · cases w with
    | integer v => cases hf
    | fixed => cases hf
    | bytes bs =>
      obtain ⟨entry, hentry, rfl⟩ := Option.map_eq_some_iff.mp hf
      refine ⟨es ++ [entry], List.rel_append hes ?_, ?_⟩
      · obtain rfl : m = 1 := not_not.mp hm
        exact .cons hentry .nil
      · rw [List.flatMap_append, hbytes, List.flatMap_singleton]

end

end Gofro.Deploy

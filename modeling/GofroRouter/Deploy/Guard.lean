import GofroRouter.Agent.Saved

/-!
# The boot guard's reading of the device exclusions

`read_exclusions` of the boot script: a `jq` program on the streamed configuration, and a loop of the
shell over what it prints. The file is given by what `stat` says of it and by the documents that `jq`
reads in it.

* `stream`: the events of `jq --stream`; `names_stream`: the selected events are one for each member.
* `display_of_pattern`: what the shell's pattern accepts are texts of hardware addresses.
* **`guard_reads_exclusions`**: the guard and the agent read the same addresses.
-/

namespace Gofro.Guard

open Text Json
open Agent

/-! ## Events -/

inductive Step
  | key (name : String)
  | index (i : ℕ)
deriving DecidableEq

/-- A leaf with its path, or the end of an object or array, with the path of its last entry. -/
structure Event where
  path : List Step
  leaf : Option Value

mutual

/-- `jq --stream`. Empty objects and arrays are leaves. -/
def stream (path : List Step) : Value → List Event
  | .array (v :: vs) => stream_items path 0 (v :: vs)
  | .object (m :: ms) => stream_members path (m :: ms)
  | .array [] => [⟨path, some (.array [])⟩]
  | .object [] => [⟨path, some (.object [])⟩]
  | .null => [⟨path, some .null⟩]
  | .bool b => [⟨path, some (.bool b)⟩]
  | .number n => [⟨path, some (.number n)⟩]
  | .string s => [⟨path, some (.string s)⟩]

/-- The events of the items of an array. -/
def stream_items (path : List Step) (i : ℕ) : List Value → List Event
  | [] => []
  | [v] => stream (path ++ [.index i]) v ++ [⟨path ++ [.index i], none⟩]
  | v :: vs => stream (path ++ [.index i]) v ++ stream_items path (i + 1) vs

/-- The events of the members of an object. -/
def stream_members (path : List Step) : List (String × Value) → List Event
  | [] => []
  | [(name, v)] => stream (path ++ [.key name]) v ++ [⟨path ++ [.key name], none⟩]
  | (name, v) :: ms => stream (path ++ [.key name]) v ++ stream_members path ms

end

/-- `select((length == 2 and (.[0] | length) == 1) or (length == 1 and (.[0] | length) == 2))` -/
def selected (event : Event) : Bool :=
  (event.leaf.isSome && event.path.length = 1) || (event.leaf.isNone && event.path.length = 2)

/-- `[.[] | select(…) | .[0][0]]` -/
def names (events : List Event) : List Step :=
  (events.filter selected).filterMap fun event => event.path.head?

/-! ## The script -/

/-- The code points from `0` to `:` and from `a` to `f`. -/
def mac_char (c : Char) : Bool :=
  (48 ≤ c.toNat && c.toNat ≤ 58) || (97 ≤ c.toNat && c.toNat ≤ 102)

/-- What the filter lets through of a value. -/
def exclusion_text : Value → Option String
  | .string s => if s.toList.length = 17 ∧ s.toList.all mac_char then some s else none
  | _ => none

/-- The `jq` program, on the documents of a file. With no member given twice, `fromstream` gives them
back. -/
def list_exclusions (documents : List Value) : Option (List String) := do
  guard (names (documents.flatMap (stream []))).Nodup
  match documents with
  | [.object members] =>
    match ((Value.object members).get "device_exclusions").getD (.array []) with
    | .array items =>
      guard (items.length ≤ 256)
      items.mapM exclusion_text
    | _ => none
  | _ => none

/-- The fields of an unquoted expansion. -/
def words (cs : List Char) : List (List Char) :=
  (cs.splitOnP fun c => c = ' ' || c = '\t' || c = '\n').filter (· ≠ [])

/-- The second digit of an address that is no group address. -/
def even_digit (c : Char) : Bool := c ∈ "02468ace".toList

/-- `[0-9a-f][02468ace]:[0-9a-f][0-9a-f]:…` -/
def mac_pattern : List (Char → Bool) :=
  [is_hex, even_digit, (· = ':'), is_hex, is_hex, (· = ':'), is_hex, is_hex, (· = ':'),
    is_hex, is_hex, (· = ':'), is_hex, is_hex, (· = ':'), is_hex, is_hex]

/-- The `case` of the shell, character by character. -/
def matches_pattern (mac : List Char) : Bool :=
  mac.length = mac_pattern.length && (mac.zip mac_pattern).all fun (c, p) => p c

/-- The loop over the fields, with what is `parsed` so far. -/
def parse_fields (parsed : String) : List (List Char) → Option String
  | [] => some parsed
  | mac :: macs =>
    if !matches_pattern mac then none
    else if mac = "00:00:00:00:00:00".toList then none
    else parse_fields (parsed ++ (if parsed = "" then "" else ", ") ++ String.ofList mac) macs

/-- The file as the shell finds it. -/
structure ConfigFile where
  symlink : Bool
  regular : Bool
  /-- `stat -c '%u:%a:%h'` -/
  stat : String
  /-- `none` if `jq` cannot read it. -/
  documents : Option (List Value)

/-- What is printed, or `none` for another exit status than 0. -/
def read_exclusions : Option ConfigFile → Option String
  | none => some ""
  | some config => do
    guard (!config.symlink && config.regular && config.stat = "0:600:1")
    let list ← list_exclusions (← config.documents)
    parse_fields "" (words (list.flatMap fun mac => mac.toList ++ ['\n']))

/-- What `save` leaves of a configuration, as root. -/
def saved (config : ControllerConfig) : ConfigFile where
  symlink := false
  regular := true
  stat := "0:600:1"
  documents := some [config.to_value]

/-! ## One name for each member -/

theorem names_append (es fs : List Event) : names (es ++ fs) = names es ++ names fs := by
  rw [names, List.filter_append, List.filterMap_append]
  rfl

theorem names_leaf_deep {path : List Step} (h : 2 ≤ path.length) (leaf : Value) :
    names [⟨path, some leaf⟩] = [] := by
  have hs : selected ⟨path, some leaf⟩ = false := by
    have hne : path.length ≠ 1 := by omega
    simp [selected, hne]
  simp [names, hs]

theorem names_close_deep {path : List Step} (h : 3 ≤ path.length) :
    names [⟨path, none⟩] = [] := by
  have hs : selected ⟨path, none⟩ = false := by
    have hne : path.length ≠ 2 := by omega
    simp [selected, hne]
  simp [names, hs]

mutual

theorem names_stream_deep : ∀ (v : Value) {path : List Step}, 2 ≤ path.length →
    names (stream path v) = []
  | .array (v :: vs), path, h => by
    rw [stream]
    exact names_items_deep (v :: vs) h 0
  | .object (m :: ms), path, h => by
    rw [stream]
    exact names_members_deep (m :: ms) h
  | .array [], path, h => by rw [stream]; exact names_leaf_deep h _
  | .object [], path, h => by rw [stream]; exact names_leaf_deep h _
  | .null, path, h => by rw [stream]; exact names_leaf_deep h _
  | .bool _, path, h => by rw [stream]; exact names_leaf_deep h _
  | .number _, path, h => by rw [stream]; exact names_leaf_deep h _
  | .string _, path, h => by rw [stream]; exact names_leaf_deep h _

theorem names_items_deep : ∀ (vs : List Value) {path : List Step}, 2 ≤ path.length → ∀ i,
    names (stream_items path i vs) = []
  | [], path, h, i => by rw [stream_items]; rfl
  | [v], path, h, i => by
    have hlen : 3 ≤ (path ++ [Step.index i]).length := by simp; omega
    rw [stream_items, names_append, names_stream_deep v (by omega), names_close_deep hlen]
    rfl
  | v :: w :: vs, path, h, i => by
    have hlen : 3 ≤ (path ++ [Step.index i]).length := by simp; omega
    rw [stream_items, names_append, names_stream_deep v (by omega),
      names_items_deep (w :: vs) h (i + 1)]
    · rfl
    · simp

theorem names_members_deep : ∀ (ms : List (String × Value)) {path : List Step}, 2 ≤ path.length →
    names (stream_members path ms) = []
  | [], path, h => by rw [stream_members]; rfl
  | [(name, v)], path, h => by
    have hlen : 3 ≤ (path ++ [Step.key name]).length := by simp; omega
    rw [stream_members, names_append, names_stream_deep v (by omega), names_close_deep hlen]
    rfl
  | (name, v) :: m :: ms, path, h => by
    have hlen : 3 ≤ (path ++ [Step.key name]).length := by simp; omega
    rw [stream_members, names_append, names_stream_deep v (by omega),
      names_members_deep (m :: ms) h]
    · rfl
    · simp

end

theorem names_items {step : Step} {vs : List Value} (h : vs ≠ []) (i : ℕ) :
    names (stream_items [step] i vs) = [step] := by
  induction vs generalizing i with
  | nil => exact absurd rfl h
  | cons v vs ih =>
    cases vs with
    | nil =>
      rw [stream_items, names_append, names_stream_deep v (by simp)]
      rfl
    | cons w vs =>
      rw [stream_items, names_append, names_stream_deep v (by simp), ih (List.cons_ne_nil _ _)]
      · rfl
      · simp

theorem names_members {step : Step} {ms : List (String × Value)} (h : ms ≠ []) :
    names (stream_members [step] ms) = [step] := by
  induction ms with
  | nil => exact absurd rfl h
  | cons m ms ih =>
    cases ms with
    | nil =>
      rw [stream_members, names_append, names_stream_deep m.2 (by simp)]
      rfl
    | cons n ms =>
      rw [stream_members, names_append, names_stream_deep m.2 (by simp), ih (List.cons_ne_nil _ _)]
      · rfl
      · simp

theorem names_stream_one (step : Step) (v : Value) : names (stream [step] v) = [step] := by
  cases v with
  | array items =>
    cases items with
    | nil => rfl
    | cons v vs => rw [stream]; exact names_items (List.cons_ne_nil _ _) 0
  | object members =>
    cases members with
    | nil => rfl
    | cons m ms => rw [stream]; exact names_members (List.cons_ne_nil _ _)
  | null | bool _ | number _ | string _ => rfl

theorem names_stream_members {ms : List (String × Value)} :
    names (stream_members [] ms) = ms.map fun m => .key m.1 := by
  induction ms with
  | nil => rw [stream_members]; rfl
  | cons m ms ih =>
    cases ms with
    | nil =>
      rw [stream_members, List.nil_append, names_append, names_stream_one]
      rfl
    | cons n ms =>
      rw [stream_members, List.nil_append, names_append, names_stream_one, ih]
      · rfl
      · simp

theorem names_stream (ms : List (String × Value)) :
    names (stream [] (.object ms)) = ms.map fun m => .key m.1 := by
  cases ms with
  | nil => rfl
  | cons m ms => rw [stream]; exact names_stream_members

theorem list_exclusions_object (members : List (String × Value)) :
    list_exclusions [.object members] = if (members.map Prod.fst).Nodup then
      match ((Value.object members).get "device_exclusions").getD (.array []) with
      | .array items => if items.length ≤ 256 then items.mapM exclusion_text else none
      | _ => none
    else none := by
  have hmap : (members.map fun m => Step.key m.1) = (members.map Prod.fst).map Step.key := by
    rw [List.map_map]
    rfl
  have hnodup : (names ([Value.object members].flatMap (stream []))).Nodup ↔
      (members.map Prod.fst).Nodup := by
    rw [List.flatMap_singleton, names_stream, hmap]
    exact List.nodup_map_iff fun _ _ h => Step.key.inj h
  rw [list_exclusions]
  by_cases hn : (members.map Prod.fst).Nodup
  · rw [if_pos hn]
    simp only [guard, if_pos (hnodup.mpr hn)]
    split
    · rename_i items _
      by_cases hlen : items.length ≤ 256
      · simp only [if_pos hlen]
        rfl
      · simp only [if_neg hlen]
        rfl
    · rfl
  · rw [if_neg hn]
    simp only [guard, if_neg fun h => hn (hnodup.mp h)]
    rfl

/-! ## The loop -/

theorem words_lines {list : List String}
    (h : ∀ mac ∈ list, mac ≠ "" ∧ ∀ c ∈ mac.toList, mac_char c = true) :
    words (list.flatMap fun mac => mac.toList ++ ['\n']) = list.map String.toList := by
  have hsep : ∀ c, mac_char c = true → (c = ' ' || c = '\t' || c = '\n') = false := by
    intro c hc
    simp only [Bool.or_eq_false_iff, decide_eq_false_iff_not]
    refine ⟨⟨?_, ?_⟩, ?_⟩ <;> (rintro rfl; revert hc; decide)
  rw [words]
  induction list with
  | nil => rfl
  | cons mac list ih =>
    obtain ⟨hne, hchars⟩ := h mac List.mem_cons_self
    rw [List.flatMap_cons, List.append_assoc, List.singleton_append,
      List.splitOnP_append_cons _ _ (by rfl),
      List.splitOnP_eq_singleton fun c hc => hsep c (hchars c hc), List.singleton_append,
      List.filter_cons_of_pos, ih fun m hm => h m (List.mem_cons_of_mem _ hm)]
    · rfl
    · simpa [String.toList_eq_nil_iff] using hne

/-- A field that the loop takes. -/
def Accepted (mac : List Char) : Prop :=
  matches_pattern mac = true ∧ mac ≠ "00:00:00:00:00:00".toList

instance (mac : List Char) : Decidable (Accepted mac) := inferInstanceAs (Decidable (_ ∧ _))

theorem Accepted.ne_nil {mac : List Char} (h : Accepted mac) : mac ≠ [] := by
  rintro rfl
  exact absurd h.1 (by decide)

theorem parse_fields_cons {parsed : String} {mac : List Char} {macs : List (List Char)} :
    parse_fields parsed (mac :: macs) = if Accepted mac then
      parse_fields (parsed ++ (if parsed = "" then "" else ", ") ++ String.ofList mac) macs
    else none := by
  rw [parse_fields]
  by_cases hmac : Accepted mac
  · rw [if_pos hmac, if_neg (by simp [hmac.1]), if_neg hmac.2]
  · rw [if_neg hmac]
    by_cases hp : matches_pattern mac = true
    · rw [if_neg (by simp [hp]), if_pos (not_not.mp fun hz => hmac ⟨hp, hz⟩)]
    · rw [if_pos (by simpa using hp)]

theorem parse_fields_next {parsed : String} (h : parsed ≠ "") (macs : List (List Char)) :
    parse_fields parsed macs = if ∀ mac ∈ macs, Accepted mac then
      some (", ".intercalate (parsed :: macs.map String.ofList)) else none := by
  induction macs generalizing parsed with
  | nil => simp [parse_fields]
  | cons mac macs ih =>
    have hne : parsed ++ ", " ++ String.ofList mac ≠ "" := by simp [h]
    rw [parse_fields_cons, if_neg h, ih hne, List.map_cons, String.intercalate_cons_cons,
      String.intercalate_cons_append]
    by_cases hmac : Accepted mac
    · simp [hmac]
    · simp [hmac]

theorem parse_fields_start (macs : List (List Char)) :
    parse_fields "" macs = if ∀ mac ∈ macs, Accepted mac then
      some (", ".intercalate (macs.map String.ofList)) else none := by
  cases macs with
  | nil => simp [parse_fields]
  | cons mac macs =>
    rw [parse_fields_cons, if_pos rfl, String.append_empty, String.empty_append]
    by_cases hmac : Accepted mac
    · have hne : String.ofList mac ≠ "" := by simpa using hmac.ne_nil
      rw [if_pos hmac, parse_fields_next hne]
      simp [hmac]
    · simp [hmac]

/-! ## Texts of hardware addresses -/

theorem is_hex_digitChar : ∀ n < 16, is_hex (Nat.digitChar n) = true ∧
    (even_digit (Nat.digitChar n) = true ↔ n % 2 = 0) := by
  decide +kernel

theorem exists_digitChar {c : Char} (h : is_hex c = true) : ∃ n < 16, c = Nat.digitChar n := by
  have hdigit : ∀ n < 10, Char.ofNat (48 + n) = Nat.digitChar n := by decide
  have hletter : ∀ n < 6, Char.ofNat (97 + n) = Nat.digitChar (10 + n) := by decide
  simp only [is_hex, Bool.or_eq_true, Bool.and_eq_true, decide_eq_true_eq] at h
  rcases h with h | h
  · have hn := hdigit (c.toNat - 48) (by omega)
    rw [Nat.add_sub_of_le h.1, Char.ofNat_toNat] at hn
    exact ⟨_, by omega, hn⟩
  · have hn := hletter (c.toNat - 97) (by omega)
    rw [Nat.add_sub_of_le h.1, Char.ofNat_toNat] at hn
    exact ⟨_, by omega, hn⟩

theorem exists_octet {a b : Char} (ha : is_hex a = true) (hb : is_hex b = true) :
    ∃ octet < 256, hex_octet octet = [a, b] ∧ (even_digit b = true ↔ octet % 2 = 0) := by
  obtain ⟨m, hm, rfl⟩ := exists_digitChar ha
  obtain ⟨n, hn, rfl⟩ := exists_digitChar hb
  have hdiv : (m * 16 + n) / 16 = m := by omega
  have hmod : (m * 16 + n) % 16 = n := by omega
  refine ⟨m * 16 + n, by omega, ?_, ?_⟩
  · rw [hex_octet, hdiv, hmod]
  · rw [(is_hex_digitChar n hn).2]
    omega

theorem getLsbD_group_bit {bits : BitVec 48} :
    bits.getLsbD 40 = false ↔ bits.toNat / 256 ^ 5 % 2 = 0 := by
  rw [← BitVec.testBit_toNat, Nat.testBit_eq_decide_div_mod_eq, decide_eq_false_iff_not]
  omega

/-- The bits of six bytes. -/
def bits_of_octets (octets : List ℕ) : BitVec 48 :=
  BitVec.ofNat 48 (octets.foldl (fun n byte => n * 256 + byte) 0)

theorem exists_display {octets : List ℕ} (hlen : octets.length = 6)
    (hlt : ∀ octet ∈ octets, octet < 256) (heven : ∀ octet ∈ octets.head?, octet % 2 = 0)
    (hzero : ∃ octet ∈ octets, octet ≠ 0) :
    ∃ mac : MacAddress, mac.octets = octets := by
  match octets, hlen with
  | [a, b, c, d, e, f], _ =>
    simp only [List.forall_mem_cons, List.head?_cons, Option.mem_some_iff, forall_eq'] at hlt heven
    obtain ⟨ha, hb, hc, hd, he, hf, -⟩ := hlt
    have hnat : (bits_of_octets [a, b, c, d, e, f]).toNat =
        ((((a * 256 + b) * 256 + c) * 256 + d) * 256 + e) * 256 + f := by
      rw [bits_of_octets, BitVec.toNat_ofNat, Nat.mod_eq_of_lt]
      · simp
      · simp only [List.foldl_cons, List.foldl_nil]
        omega
    refine ⟨⟨bits_of_octets [a, b, c, d, e, f], ?_, ?_⟩, ?_⟩
    · intro h
      rw [h, show BitVec.toNat (0 : BitVec 48) = 0 from rfl] at hnat
      simp only [List.mem_cons, List.not_mem_nil, or_false, exists_eq_or_imp, exists_eq_left] at hzero
      omega
    · rw [getLsbD_group_bit, hnat]
      omega
    · simp only [MacAddress.octets, hnat, List.cons.injEq, and_true]
      omega

theorem exists_pairs {mac : List Char} (h : matches_pattern mac = true) :
    ∃ octets : List ℕ, octets.length = 6 ∧ (∀ octet ∈ octets, octet < 256) ∧
      (∀ octet ∈ octets.head?, octet % 2 = 0) ∧
      mac = [':'].intercalate (octets.map hex_octet) := by
  simp only [matches_pattern, Bool.and_eq_true, decide_eq_true_eq] at h
  obtain ⟨hlen, hall⟩ := h
  match mac, hlen with
  | [a, a', s₁, b, b', s₂, c, c', s₃, d, d', s₄, e, e', s₅, f, f'], _ =>
    simp only [mac_pattern, List.zip_cons_cons, List.zip_nil_left, List.all_cons, List.all_nil,
      Bool.and_true, Bool.and_eq_true, decide_eq_true_eq] at hall
    obtain ⟨ha, ha', rfl, hb, hb', rfl, hc, hc', rfl, hd, hd', rfl, he, he', rfl, hf, hf'⟩ := hall
    have heach : "02468ace".toList.all is_hex = true := by decide +kernel
    have hhex : ∀ c, even_digit c = true → is_hex c = true := fun c hc =>
      List.all_eq_true.mp heach c (by simpa [even_digit] using hc)
    obtain ⟨o₀, h₀, ht₀, heven⟩ := exists_octet ha (hhex _ ha')
    obtain ⟨o₁, h₁, ht₁, -⟩ := exists_octet hb hb'
    obtain ⟨o₂, h₂, ht₂, -⟩ := exists_octet hc hc'
    obtain ⟨o₃, h₃, ht₃, -⟩ := exists_octet hd hd'
    obtain ⟨o₄, h₄, ht₄, -⟩ := exists_octet he he'
    obtain ⟨o₅, h₅, ht₅, -⟩ := exists_octet hf hf'
    refine ⟨[o₀, o₁, o₂, o₃, o₄, o₅], rfl, ?_, ?_, ?_⟩
    · simp only [List.forall_mem_cons]
      exact ⟨h₀, h₁, h₂, h₃, h₄, h₅, fun _ hm => absurd hm List.not_mem_nil⟩
    · simpa using heven.mp ha'
    · simp [List.intercalate, ht₀, ht₁, ht₂, ht₃, ht₄, ht₅]

theorem display_of_accepted {mac : List Char} (h : Accepted mac) :
    ∃ address : MacAddress, address.display.toList = mac := by
  obtain ⟨octets, hlen, hlt, heven, rfl⟩ := exists_pairs h.1
  have hzero : ∃ octet ∈ octets, octet ≠ 0 := by
    by_contra hno
    have hall : octets = List.replicate 6 0 :=
      List.eq_replicate_iff.mpr ⟨hlen, fun o ho => by
        by_contra hne
        exact hno ⟨o, ho, hne⟩⟩
    exact h.2 (by rw [hall]; decide)
  obtain ⟨address, ho⟩ := exists_display hlen hlt heven hzero
  exact ⟨address, by rw [address.display_toList, ho]⟩

theorem matches_pattern_octets {octets : List ℕ} (hlen : octets.length = 6)
    (hlt : ∀ octet ∈ octets, octet < 256) (heven : ∀ octet ∈ octets.head?, octet % 2 = 0) :
    matches_pattern ([':'].intercalate (octets.map hex_octet)) = true := by
  match octets, hlen with
  | [a, b, c, d, e, f], _ =>
    have hhigh : ∀ octet < 256, is_hex (Nat.digitChar (octet / 16)) = true :=
      fun octet ho => (is_hex_digitChar _ (by omega)).1
    have hlow : ∀ octet, is_hex (Nat.digitChar (octet % 16)) = true :=
      fun octet => (is_hex_digitChar _ (by omega)).1
    simp only [List.forall_mem_cons, List.head?_cons, Option.mem_some_iff, forall_eq'] at hlt heven
    obtain ⟨ha, hb, hc, hd, he, hf, -⟩ := hlt
    have ha' : even_digit (Nat.digitChar (a % 16)) = true :=
      (is_hex_digitChar _ (by omega)).2.mpr (by omega)
    simp [List.intercalate, hex_octet, matches_pattern, mac_pattern, hhigh, hlow, ha, ha', hb, hc,
      hd, he, hf]

theorem accepted_display (address : MacAddress) : Accepted address.display.toList := by
  constructor
  · have hgroup : address.bits.toNat / 256 ^ 5 % 2 = 0 := getLsbD_group_bit.mp address.unicast
    rw [address.display_toList]
    refine matches_pattern_octets rfl address.octets_lt ?_
    rintro octet ho
    rw [← Option.some_injective _ ho]
    exact hgroup
  · intro h
    have hp := parse_mac_display address
    have hnone : Devices.parse_mac "00:00:00:00:00:00".toList = none := by decide +kernel
    rw [h, hnone] at hp
    cases hp

/-! ## The same addresses -/

theorem exclusion_text_eq_some {v : Value} {s : String} : exclusion_text v = some s ↔
    v = .string s ∧ s.toList.length = 17 ∧ ∀ c ∈ s.toList, mac_char c = true := by
  cases v with
  | string t =>
    rw [exclusion_text, ← List.all_eq_true]
    split_ifs with h
    · constructor
      · intro he
        cases he
        exact ⟨rfl, h⟩
      · rintro ⟨he, -⟩
        cases he
        rfl
    · constructor
      · intro he
        cases he
      · rintro ⟨he, hs⟩
        cases he
        exact absurd hs h
  | _ => exact ⟨fun h => (nomatch h), fun h => (nomatch h.1)⟩

theorem exclusion_text_display (address : MacAddress) :
    exclusion_text address.to_value = some address.display := by
  refine exclusion_text_eq_some.mpr ⟨rfl, address.length_display, fun c hc => ?_⟩
  rcases address.display_chars c hc with rfl | hc
  · decide
  · simp only [is_hex, mac_char, Bool.or_eq_true, Bool.and_eq_true, decide_eq_true_eq] at hc ⊢
    omega

theorem mapM_exclusion_text (macs : List MacAddress) :
    (macs.map MacAddress.to_value).mapM exclusion_text = some (macs.map MacAddress.display) := by
  induction macs with
  | nil => rfl
  | cons mac macs ih =>
    rw [List.map_cons, List.mapM_cons, exclusion_text_display, ih]
    rfl

theorem parse_displays (macs : List MacAddress) :
    parse_fields "" (words ((macs.map MacAddress.display).flatMap fun mac => mac.toList ++ ['\n'])) =
      some (", ".intercalate (macs.map MacAddress.display)) := by
  have hchars : ∀ mac ∈ macs.map MacAddress.display, mac ≠ "" ∧ ∀ c ∈ mac.toList, mac_char c = true := by
    intro mac hm
    obtain ⟨address, -, rfl⟩ := List.mem_map.mp hm
    refine ⟨fun h => ?_, (exclusion_text_eq_some.mp (exclusion_text_display address)).2.2⟩
    exact (accepted_display address).ne_nil (by rw [h]; rfl)
  have hall : ∀ mac ∈ (macs.map MacAddress.display).map String.toList, Accepted mac := by
    intro mac hm
    rw [List.map_map] at hm
    obtain ⟨address, -, rfl⟩ := List.mem_map.mp hm
    exact accepted_display address
  have hback : ((macs.map MacAddress.display).map String.toList).map String.ofList =
      macs.map MacAddress.display := by
    rw [List.map_map]
    simp
  rw [words_lines hchars, parse_fields_start, if_pos hall, hback]

theorem list_exclusions_saved {config : ControllerConfig}
    (h : config.device_exclusions.length ≤ 256) : list_exclusions [config.to_value] =
      some (config.device_exclusions.map MacAddress.display) := by
  have hnames : ["auto_update_enabled", "device_exclusions", "vpn_enabled", "active_server_key",
      "servers", "routing"].Nodup := by decide
  rw [ControllerConfig.to_value, list_exclusions_object]
  refine (if_pos hnames).trans ?_
  have hitems := mapM_exclusion_text config.device_exclusions
  have hlen : (config.device_exclusions.map MacAddress.to_value).length ≤ 256 := by simpa using h
  exact (if_pos hlen).trans hitems

theorem read_exclusions_saved {config : ControllerConfig}
    (h : config.device_exclusions.length ≤ 256) : read_exclusions (some (saved config)) =
      some (", ".intercalate (config.device_exclusions.map MacAddress.display)) := by
  simp only [read_exclusions, saved, list_exclusions_saved h, Option.bind_eq_bind, Option.bind_some,
    parse_displays]
  rfl

/-- A text that the loop takes is read by the agent, as the address it is the text of. -/
theorem of_value_of_accepted {v : Value} {s : String} (h : exclusion_text v = some s)
    (ha : Accepted s.toList) : ∃ mac, MacAddress.of_value v = some mac ∧ s = mac.display := by
  obtain ⟨rfl, -⟩ := exclusion_text_eq_some.mp h
  obtain ⟨mac, hmac⟩ := display_of_accepted ha
  refine ⟨mac, ?_, String.toList_injective hmac.symm⟩
  rw [MacAddress.of_value, Server.as_string, Option.bind_eq_bind, Option.bind_some, ← hmac,
    parse_mac_display]

theorem exclusions_of_listed {items : List Value} {list : List String}
    (hlist : items.mapM exclusion_text = some list) (hall : ∀ mac ∈ list, Accepted mac.toList) :
    ∃ macs : List MacAddress, items.mapM MacAddress.of_value = some macs ∧
      list = macs.map MacAddress.display ∧ macs.length = items.length := by
  induction items generalizing list with
  | nil =>
    cases hlist
    exact ⟨[], rfl, rfl, rfl⟩
  | cons v items ih =>
    rw [List.mapM_cons] at hlist
    simp only [Option.bind_eq_bind, Option.bind_eq_some_iff, Option.pure_def,
      Option.some.injEq] at hlist
    obtain ⟨s, hs, rest, hrest, rfl⟩ := hlist
    obtain ⟨macs, hm, rfl, hlen⟩ := ih hrest fun mac hmac => hall mac (List.mem_cons_of_mem _ hmac)
    obtain ⟨mac, hv, rfl⟩ := of_value_of_accepted hs (hall s List.mem_cons_self)
    refine ⟨mac :: macs, ?_, rfl, by rw [List.length_cons, List.length_cons, hlen]⟩
    rw [List.mapM_cons, hv, hm]
    rfl

theorem listed_chars {items : List Value} {list : List String}
    (hlist : items.mapM exclusion_text = some list) :
    ∀ mac ∈ list, mac ≠ "" ∧ ∀ c ∈ mac.toList, mac_char c = true := by
  induction items generalizing list with
  | nil =>
    cases hlist
    exact fun _ hm => absurd hm List.not_mem_nil
  | cons v items ih =>
    rw [List.mapM_cons] at hlist
    simp only [Option.bind_eq_bind, Option.bind_eq_some_iff, Option.pure_def,
      Option.some.injEq] at hlist
    obtain ⟨s, hs, rest, hrest, rfl⟩ := hlist
    obtain ⟨-, hlen, hchars⟩ := exclusion_text_eq_some.mp hs
    refine List.forall_mem_cons.mpr ⟨⟨?_, hchars⟩, ih hrest⟩
    rintro rfl
    exact absurd hlen (by decide)

theorem member_of_nodup {members : List (String × Value)} (h : (members.map Prod.fst).Nodup)
    (name : String) : member members name = some ((Value.object members).get name) := by
  have hget : (Value.object members).get name =
      ((members.filter (·.1 = name)).reverse.head?).map Prod.snd := by
    rw [Value.get, ← List.head?_filter, List.filter_reverse]
  have hnodup : ((members.filter (·.1 = name)).map Prod.fst).Nodup :=
    h.sublist (List.filter_sublist.map _)
  have hname : ∀ m ∈ members.filter (·.1 = name), m.1 = name := fun m hm => by
    simpa using (List.mem_filter.mp hm).2
  rw [member, hget]
  generalize members.filter (·.1 = name) = found at hnodup hname
  rcases found with _ | ⟨m, _ | ⟨n, rest⟩⟩
  · rfl
  · rfl
  · have hm : m.1 = name := hname m (by simp)
    have hn : n.1 = name := hname n (by simp)
    simp [hm, hn] at hnodup

/-- What is listed is an array of texts in a member that is given once, or nothing. -/
theorem list_exclusions_eq_some {documents : List Value} {list : List String}
    (h : list_exclusions documents = some list) :
    ∃ members items, documents = [.object members] ∧ items.length ≤ 256 ∧
      items.mapM exclusion_text = some list ∧
      ∃ found, member members "device_exclusions" = some found ∧ found.getD (.array []) = .array items := by
  have hdoc : ∃ members, documents = [.object members] := by
    unfold list_exclusions at h
    rw [Option.bind_eq_bind, Option.bind_eq_some_iff] at h
    obtain ⟨_, -, h⟩ := h
    split at h
    · exact ⟨_, rfl⟩
    · cases h
  obtain ⟨members, rfl⟩ := hdoc
  rw [list_exclusions_object] at h
  by_cases hn : (members.map Prod.fst).Nodup
  · rw [if_pos hn] at h
    split at h
    · rename_i items hitems
      split_ifs at h with hlen
      exact ⟨members, items, rfl, hlen, h, _, member_of_nodup hn _, hitems⟩
    · cases h
  · rw [if_neg hn] at h
    cases h

/-- What `read_exclusions` prints are addresses that the agent reads in the same file. -/
theorem read_exclusions_eq_some {file : ConfigFile} {text : String}
    (h : read_exclusions (some file) = some text) :
    ∃ members macs, file.documents = some [.object members] ∧
      exclusions_of_members members = some macs ∧ macs.length ≤ 256 ∧
      text = ", ".intercalate (macs.map MacAddress.display) := by
  simp only [read_exclusions, Option.bind_eq_bind, Option.bind_eq_some_iff] at h
  obtain ⟨_, -, documents, hdoc, list, hlist, hparse⟩ := h
  obtain ⟨members, items, rfl, hlen, hitems, found, hmember, hfound⟩ := list_exclusions_eq_some hlist
  rw [words_lines (listed_chars hitems), parse_fields_start] at hparse
  split_ifs at hparse with hall
  cases hparse
  obtain ⟨macs, hmacs, hdisplay, hlength⟩ := exclusions_of_listed hitems fun mac hm =>
    hall _ (List.mem_map_of_mem hm)
  refine ⟨members, macs, hdoc, ?_, hlength ▸ hlen, ?_⟩
  · rw [exclusions_of_members, defaulted, hmember, Option.bind_eq_bind, Option.bind_some]
    cases found with
    | none =>
      have hnil : items = [] := by
        cases hfound
        rfl
      rw [hnil] at hmacs
      exact hmacs
    | some v =>
      have hv : v = .array items := hfound
      rw [hv]
      exact hmacs
  · rw [hdisplay, List.map_map]
    simp

/-- **The guard and the agent read the same device exclusions.** -/
theorem guard_reads_exclusions :
    (∀ mac : MacAddress, Devices.parse_mac mac.display.toList = some mac) ∧
    (∀ macs config, normalize_exclusions macs = .ok config.device_exclusions →
      read_exclusions (some (saved config)) =
        some (", ".intercalate (config.device_exclusions.map MacAddress.display))) ∧
    ∀ file text, read_exclusions (some file) = some text →
      ∃ members macs loaded, file.documents = some [.object members] ∧
        exclusions_of_members members = some macs ∧ normalize_exclusions macs = .ok loaded ∧
        text = ", ".intercalate (macs.map MacAddress.display) ∧ ∀ mac, mac ∈ loaded ↔ mac ∈ macs := by
  refine ⟨parse_mac_display, fun macs config h => ?_, fun file text h => ?_⟩
  · exact read_exclusions_saved (normalize_exclusions_eq_ok.mp h).2
  · obtain ⟨members, macs, hdoc, hmacs, hlen, htext⟩ := read_exclusions_eq_some h
    have hloaded := normalize_exclusions_of_length hlen
    exact ⟨members, macs, _, hdoc, hmacs, hloaded, htext, mem_normalize_exclusions hloaded⟩

end Gofro.Guard

import GofroRouter.Deploy.Prepare

/-!
# The agent on a prepared catalog

What `IndexedFile::open` and `decode_ip` make of the output of `prepare`, compared with the
original catalog.

* `fields_cooked`, `entryOf_cooked`: the entry that the agent reads in a prepared entry.
* `open_prepared_iff`: the index opens if no tag is too long.
* **`prepare_faithful`**: the agent finds the same tags with the same addresses in both catalogs.
-/

namespace Gofro.Deploy

open Agent.Geodata

/-! ## Networks -/

theorem varint_small {v : ℕ} (h : v < 128) : varint v = [UInt8.ofNat v] := by
  rw [varint, if_pos h]

theorem netOf_packed (ip : Ipv4.Addr) {p : ℕ} (h : p ≤ 32) :
    netOf (packed ip) p = some ⟨ip, p, h⟩ := by
  have hip := ip.isLt
  have hbyte : ∀ n : ℕ, (UInt8.ofNat (ip.toNat >>> n % 256)).toNat = ip.toNat / 2 ^ n % 256 := by
    intro n
    rw [Wire.byte_toNat (Nat.mod_lt _ (by norm_num)), Nat.shiftRight_eq_div_pow]
  have haddr : Ipv4.addr (ip.toNat / 2 ^ 24 % 256) (ip.toNat / 2 ^ 16 % 256)
      (ip.toNat / 2 ^ 8 % 256) (ip.toNat / 2 ^ 0 % 256) = ip := by
    refine BitVec.eq_of_toNat_eq ?_
    rw [Ipv4.addr, BitVec.toNat_ofNat]
    omega
  simp only [packed, List.map_cons, List.map_nil, netOf, hbyte, haddr, dif_pos h]

/-- The fields of a rendered network. -/
def cidrFields (n : Ipv4.Net) : List Wire.Field :=
  (1, .bytes (packed n.network)) ::
    if n.prefix_len ≠ 0 then [(2, .integer n.prefix_len)] else []

theorem cidrFields_small (n : Ipv4.Net) : ∀ f ∈ cidrFields n, Wire.Field.Small f := by
  have hp := n.prefix_le
  have hpacked : Wire.Field.Small (1, .bytes (packed n.network)) :=
    ⟨by norm_num, by norm_num, by simp [packed]⟩
  intro f hf
  rcases List.mem_cons.mp hf with rfl | hf
  · exact hpacked
  · split_ifs at hf
    · obtain rfl := List.mem_singleton.mp hf
      exact ⟨by norm_num, by norm_num, by omega⟩
    · cases hf

theorem render_cidr_eq (n : Ipv4.Net) : render_cidr n = (cidrFields n).flatMap Wire.putField := by
  have hp := n.prefix_le
  rw [render_cidr, cidrFields, List.flatMap_cons, message_eq (by norm_num) (by simp [packed])]
  split_ifs
  · rw [varint_eq_put (by decide), varint_eq_put (by omega), List.flatMap_singleton]
    rfl
  · rfl

theorem fields_render_cidr (n : Ipv4.Net) : Wire.fields (render_cidr n) = some (cidrFields n) := by
  rw [render_cidr_eq, Wire.fields_flatMap (cidrFields_small n)]

theorem length_render_cidr (n : Ipv4.Net) : (render_cidr n).length ≤ 8 := by
  have hp := n.prefix_le
  rw [render_cidr, message, varint_small (show 1 <<< 3 ||| 2 < 128 by decide),
    varint_small (show (packed n.network).length < 128 by simp [packed])]
  split_ifs
  · rw [varint_small (show 2 <<< 3 < 128 by decide), varint_small (show n.prefix_len < 128 by omega)]
    simp [packed]
  · simp [packed]

theorem foldlM_cidrStep_render (n : Ipv4.Net) :
    ((Wire.fields (render_cidr n)).bind fun fs => fs.foldlM cidrStep (none, 0)) =
      some (some (packed n.network), n.prefix_len) := by
  rw [fields_render_cidr, cidrFields]
  split_ifs with h
  · rfl
  · rw [ne_eq, not_not] at h
    rw [h]
    rfl

theorem cidrOf_render_cidr (n : Ipv4.Net) : cidrOf (render_cidr n) = some n.trunc := by
  have hf := fields_render_cidr n
  have hs := foldlM_cidrStep_render n
  rw [hf, Option.bind_some] at hs
  obtain ⟨ha, hp⟩ := Prod.mk.inj (foldlM_cidrStep hs)
  rw [cidrOf_eq hf, ← ha, ← hp, Option.bind_some, netOf_packed n.network n.prefix_le]
  rfl

/-! ## Entries -/

section

variable {collapse_addresses : List Ipv4.Net → List Ipv4.Net} {entry : Entry}

/-- The networks that a prepared entry lists. -/
def cookedNetworks (collapse_addresses : List Ipv4.Net → List Ipv4.Net) (entry : Entry) :
    List Ipv4.Net := if entry.inverse then [] else collapse_addresses entry.networks

/-- The fields of a prepared entry. -/
def cookedFields (collapse_addresses : List Ipv4.Net → List Ipv4.Net) (entry : Entry) :
    List Wire.Field :=
  (1, .bytes entry.tag) ::
    if entry.inverse then [(3, .integer 1)]
    else (collapse_addresses entry.networks).map fun n => (2, .bytes (render_cidr n))

theorem fields_cooked (h : entry.tag.length < 2 ^ 64) :
    Wire.fields (cooked collapse_addresses entry) = some (cookedFields collapse_addresses entry) := by
  have hnet : ∀ n, Wire.Field.Small (2, .bytes (render_cidr n)) := fun n =>
    ⟨by norm_num, by norm_num, lt_of_le_of_lt (length_render_cidr n) (by norm_num)⟩
  have hsmall : ∀ f ∈ cookedFields collapse_addresses entry, Wire.Field.Small f := by
    intro f hf
    rcases List.mem_cons.mp hf with rfl | hf
    · exact ⟨by norm_num, by norm_num, h⟩
    · split_ifs at hf
      · obtain rfl := List.mem_singleton.mp hf
        exact ⟨by norm_num, by norm_num, by norm_num⟩
      · obtain ⟨n, -, rfl⟩ := List.mem_map.mp hf
        exact hnet n
  rw [← Wire.fields_flatMap hsmall, cooked, cookedFields, List.flatMap_cons,
    message_eq (by norm_num) h]
  split_ifs
  · rw [varint_eq_put (by decide), varint_eq_put (by norm_num), List.flatMap_singleton]
    rfl
  · rw [List.flatMap_map]
    have hmessage : ∀ n ∈ collapse_addresses entry.networks,
        message 2 (render_cidr n) = Wire.putField (2, .bytes (render_cidr n)) :=
      fun n _ => message_eq (by norm_num) (hnet n).2.2
    rw [List.flatMap_congr hmessage]

theorem cookedFields_spec (collapse_addresses : List Ipv4.Net → List Ipv4.Net) (entry : Entry) :
    Wire.lastBytes 1 (cookedFields collapse_addresses entry) = some entry.tag ∧
    Wire.lastInteger 3 (cookedFields collapse_addresses entry) = (if entry.inverse then 1 else 0) ∧
    Wire.byteStrings 2 (cookedFields collapse_addresses entry) =
      (cookedNetworks collapse_addresses entry).map render_cidr := by
  unfold cookedFields cookedNetworks
  split_ifs
  · exact ⟨rfl, rfl, rfl⟩
  · refine ⟨?_, ?_, ?_⟩
    · simp [Wire.lastBytes, Wire.byteStrings, List.filterMap_map]
    · simp [Wire.lastInteger, Wire.integers, List.filterMap_map]
    · simp [Wire.byteStrings, List.filterMap_map]

/-- **The entry in a prepared entry.** -/
theorem entryOf_cooked (collapse_addresses : List Ipv4.Net → List Ipv4.Net)
    (h : entry.tag.length < 2 ^ 64) :
    (entryOf (cooked collapse_addresses entry)).tag =
        Text.to_ascii_lowercase ((Text.from_utf8 entry.tag).getD "") ∧
      (entryOf (cooked collapse_addresses entry)).inverse = entry.inverse ∧
      (entryOf (cooked collapse_addresses entry)).networks =
        (cookedNetworks collapse_addresses entry).map Ipv4.Net.trunc := by
  obtain ⟨htag, hinverse, hnetworks⟩ := cookedFields_spec collapse_addresses entry
  simp only [entryOf, fieldsOf, fields_cooked h, Option.getD_some, lastText, htag, hinverse,
    hnetworks]
  refine ⟨rfl, ?_, ?_⟩
  · cases entry.inverse <;> rfl
  · rw [List.filterMap_map, ← List.filterMap_eq_map]
    exact List.filterMap_congr fun n _ => cidrOf_render_cidr n

theorem foldlM_headerStep_cooked {tag : String} (hutf8 : Text.from_utf8 entry.tag = some tag) :
    (cookedFields collapse_addresses entry).foldlM (headerStep true) ("", false) =
      if entry.tag.length ≤ 64 then some (Text.to_ascii_lowercase tag, entry.inverse) else none := by
  rw [cookedFields, List.foldlM_cons, headerStep]
  by_cases hlen : entry.tag.length ≤ 64
  · rw [if_pos hlen, if_pos hlen, hutf8, Option.map_some]
    show List.foldlM _ _ _ = _
    cases hinv : entry.inverse with
    | true => rfl
    | false =>
      refine foldlM_same fun f hf => ?_
      obtain ⟨n, -, rfl⟩ := List.mem_map.mp hf
      rfl
  · rw [if_neg hlen, if_neg hlen]
    rfl

theorem foldlM_ipStep_cooked (collapse_addresses : List Ipv4.Net → List Ipv4.Net) (entry : Entry) :
    ((cookedFields collapse_addresses entry).foldlM ipStep []).isSome = true := by
  refine foldlM_isSome (fun ns f hf => ?_) []
  rcases List.mem_cons.mp hf with rfl | hf
  · rfl
  · split_ifs at hf
    · obtain rfl := List.mem_singleton.mp hf
      rfl
    · obtain ⟨n, -, rfl⟩ := List.mem_map.mp hf
      rw [ipStep, if_neg (by norm_num)]
      simp only [foldlM_cidrStep_render, Option.map_some, Option.isSome_some]

/-! ## Opening -/

/-- The tag that an entry ends up with has at most 64 bytes. -/
def ShortTag (bs : List UInt8) : Prop :=
  ((Wire.lastBytes 1 (fieldsOf bs)).getD []).length ≤ 64

theorem Cooks.short_iff {bs : List UInt8} (h : Cooks bs entry) :
    ShortTag bs ↔ entry.tag.length ≤ 64 := by
  rw [ShortTag, h.spec.tag]

theorem foldlM_headerStep_short {fs : List Wire.Field} {s : String × Bool}
    (h : fs.foldlM (headerStep true) ("", false) = some s) :
    ((Wire.lastBytes 1 fs).getD []).length ≤ 64 := by
  refine foldlM_invariant (P := fun fs _ => ((Wire.lastBytes 1 fs).getD []).length ≤ 64)
    (fun fs f s s' hs hf => ?_) (by simp) h
  rw [Wire.lastBytes_concat]
  obtain ⟨m, v | bs⟩ := f
  · exact hs
  · dsimp only
    split_ifs with hm
    · subst hm
      obtain ⟨t, ht, -⟩ := Option.map_eq_some_iff.mp hf
      split_ifs at ht with hlen
      exact hlen
    · exact hs
  · exact hs

theorem foldlM_entryStep_mem {fs : List Wire.Field} {contents : List (String × List UInt8)}
    (h : fs.foldlM (entryStep true) [] = some contents) :
    (∀ bs ∈ Wire.byteStrings 1 fs, ShortTag bs) ∧
      ∀ p ∈ contents, p.2 ∈ Wire.byteStrings 1 fs := by
  refine foldlM_invariant (P := fun fs contents => (∀ bs ∈ Wire.byteStrings 1 fs, ShortTag bs) ∧
    ∀ p ∈ contents, p.2 ∈ Wire.byteStrings 1 fs) (fun fs f contents contents' hs hf => ?_)
    ⟨by simp [Wire.byteStrings], by simp⟩ h
  obtain ⟨hshort, hmem⟩ := hs
  obtain ⟨m, w⟩ := f
  rw [Wire.byteStrings_concat]
  unfold entryStep at hf
  split_ifs at hf with hm
  · cases hf
    have hnil : Wire.byteStrings 1 [(m, w)] = [] := by
      cases w <;> simp [Wire.byteStrings, show m ≠ 1 from hm]
    rw [hnil, List.append_nil]
    exact ⟨hshort, hmem⟩
  · cases w with
    | integer v => cases hf
    | fixed => cases hf
    | bytes bs =>
      obtain rfl : m = 1 := not_not.mp hm
      have hbs : Wire.byteStrings 1 [(1, .bytes bs)] = [bs] := rfl
      obtain ⟨s, hs, rfl⟩ := Option.map_eq_some_iff.mp hf
      obtain ⟨gs, hg, hs⟩ := Option.bind_eq_some_iff.mp hs
      have hbs' : ShortTag bs := by
        rw [ShortTag, fieldsOf, hg]
        exact foldlM_headerStep_short hs
      rw [hbs]
      refine ⟨fun b hb => ?_, fun p hp => ?_⟩
      · rcases List.mem_append.mp hb with hb | hb
        · exact hshort b hb
        · exact List.mem_singleton.mp hb ▸ hbs'
      · have hkeep : ∀ p ∈ contents, p.2 ∈ Wire.byteStrings 1 fs ++ [bs] :=
          fun p hp => List.mem_append_left _ (hmem p hp)
        split_ifs at hp
        · exact hkeep p hp
        · rcases List.mem_cons.mp hp with rfl | hp
          · exact List.mem_append_right _ List.mem_cons_self
          · exact hkeep p hp

theorem imp_right {α β : Type} {R S : α → β → Prop} {l : List α} {m : List β}
    (h : List.Forall₂ R l m) (hi : ∀ a, ∀ b ∈ m, R a b → S a b) : List.Forall₂ S l m := by
  induction h with
  | nil => exact .nil
  | cons hab _ ih =>
    exact .cons (hi _ _ List.mem_cons_self hab)
      (ih fun a b hb => hi a b (List.mem_cons_of_mem _ hb))

/-- The prepared entries and a file of them. -/
structure Prepared (collapse_addresses : List Ipv4.Net → List Ipv4.Net) (original prepared : File)
    (es : List Entry) : Prop where
  cooks : List.Forall₂ Cooks (Wire.byteStrings 1 (fieldsOf original.bytes)) es
  bytes : prepared.bytes = es.flatMap fun entry => message 1 (cooked collapse_addresses entry)

variable {original prepared : File} {es : List Entry}

theorem length_le_flatMap {α β : Type} {f : α → List β} {l : List α} {a : α} (h : a ∈ l) :
    (f a).length ≤ (l.flatMap f).length := by
  obtain ⟨s, t, rfl⟩ := List.append_of_mem h
  simp only [List.flatMap_append, List.flatMap_cons, List.length_append]
  omega

theorem length_le_message (n : ℕ) (data : List UInt8) : data.length ≤ (message n data).length := by
  simp only [message, List.length_append]
  omega

theorem Prepared.length (h : Prepared collapse_addresses original prepared es)
    (he : entry ∈ es) : (cooked collapse_addresses entry).length < 2 ^ 64 ∧
      entry.tag.length < 2 ^ 64 := by
  have hfile := prepared.small
  rw [h.bytes] at hfile
  have h₁ := length_le_flatMap (f := fun entry => message 1 (cooked collapse_addresses entry)) he
  have h₂ := length_le_message 1 (cooked collapse_addresses entry)
  have h₃ := length_le_message 1 entry.tag
  have h₄ : (message 1 entry.tag).length ≤ (cooked collapse_addresses entry).length := by
    rw [cooked, List.length_append]
    exact Nat.le_add_right _ _
  omega

theorem Prepared.fields (h : Prepared collapse_addresses original prepared es) :
    Wire.fields prepared.bytes =
      some (es.map fun entry => (1, .bytes (cooked collapse_addresses entry))) := by
  have hsmall : ∀ f ∈ es.map fun entry => ((1, .bytes (cooked collapse_addresses entry)) : Wire.Field),
      Wire.Field.Small f := by
    intro f hf
    obtain ⟨entry, he, rfl⟩ := List.mem_map.mp hf
    exact ⟨by norm_num, by norm_num, (h.length he).1⟩
  rw [← Wire.fields_flatMap hsmall, List.flatMap_map, h.bytes]
  exact congrArg _ (List.flatMap_congr fun entry he => message_eq (by norm_num) (h.length he).1)

theorem byteStrings_cooked : Wire.byteStrings 1
    (es.map fun entry => (1, .bytes (cooked collapse_addresses entry))) =
      es.map (cooked collapse_addresses) := by
  rw [Wire.byteStrings, List.filterMap_map, ← List.filterMap_eq_map]
  rfl

theorem Prepared.byteStrings (h : Prepared collapse_addresses original prepared es) :
    Wire.byteStrings 1 (fieldsOf prepared.bytes) = es.map (cooked collapse_addresses) := by
  rw [fieldsOf, h.fields, Option.getD_some, byteStrings_cooked]

theorem Prepared.foldlM_entryStep (h : Prepared collapse_addresses original prepared es) :
    ((Wire.fields prepared.bytes).bind fun fs => fs.foldlM (entryStep true) []).isSome = true ↔
      ∀ entry ∈ es, entry.tag.length ≤ 64 := by
  have hutf8 : ∀ entry ∈ es, ∃ tag, Text.from_utf8 entry.tag = some tag := by
    intro entry he
    obtain ⟨bs, -, hcooks⟩ := exists_of_forall₂_right h.cooks he
    exact Option.isSome_iff_exists.mp hcooks.spec.utf8
  rw [h.fields, Option.bind_some]
  constructor
  · intro hsome entry he
    obtain ⟨contents, hc⟩ := Option.isSome_iff_exists.mp hsome
    have hmem := List.mem_map_of_mem (f := cooked collapse_addresses) he
    rw [← byteStrings_cooked] at hmem
    have hshort := (foldlM_entryStep_mem hc).1 _ hmem
    rw [ShortTag, fieldsOf, fields_cooked (h.length he).2] at hshort
    rwa [Option.getD_some, (cookedFields_spec collapse_addresses entry).1] at hshort
  · intro hshort
    refine foldlM_isSome (fun contents f hf => ?_) []
    obtain ⟨entry, he, rfl⟩ := List.mem_map.mp hf
    obtain ⟨tag, htag⟩ := hutf8 entry he
    rw [entryStep, if_neg (by norm_num)]
    simp only [fields_cooked (h.length he).2, Option.bind_some, foldlM_headerStep_cooked htag,
      if_pos (hshort entry he), Option.map_some, Option.isSome_some]

/-- **A prepared catalog opens** if no tag is too long. -/
theorem Prepared.open_iff (h : Prepared collapse_addresses original prepared es) :
    (∃ f, IndexedFile.open prepared true = .ok f) ↔
      ∀ bs ∈ Wire.byteStrings 1 (fieldsOf original.bytes), ShortTag bs := by
  have hshort : (∀ entry ∈ es, entry.tag.length ≤ 64) ↔
      ∀ bs ∈ Wire.byteStrings 1 (fieldsOf original.bytes), ShortTag bs := by
    constructor
    · intro hes bs hbs
      obtain ⟨entry, he, hcooks⟩ := exists_of_forall₂_left h.cooks hbs
      exact hcooks.short_iff.mpr (hes entry he)
    · intro hbs entry he
      obtain ⟨bs, hb, hcooks⟩ := exists_of_forall₂_right h.cooks he
      exact hcooks.short_iff.mp (hbs bs hb)
  have hs := sim_open prepared true
  rw [← hshort, ← h.foldlM_entryStep, Option.isSome_iff_exists]
  constructor
  · rintro ⟨f, hf⟩
    rw [hf] at hs
    obtain ⟨contents, hc, -⟩ := hs.isSome
    exact ⟨contents, hc⟩
  · rintro ⟨contents, hc⟩
    rw [hc] at hs
    obtain ⟨f, hf, -⟩ := hs.isOk
    exact ⟨f, hf⟩

theorem open_short {f : IndexedFile} (h : IndexedFile.open original true = .ok f) :
    ∀ bs ∈ Wire.byteStrings 1 (fieldsOf original.bytes), ShortTag bs := by
  have hs := sim_open original true
  rw [h] at hs
  obtain ⟨contents, hc, -⟩ := hs.isSome
  obtain ⟨fs, hfs, hc⟩ := Option.bind_eq_some_iff.mp hc
  rw [fieldsOf, hfs, Option.getD_some]
  exact (foldlM_entryStep_mem hc).1

/-! ## Addresses -/

/-- `ipaddress.collapse_addresses` keeps the addresses. -/
def Collapses (collapse_addresses : List Ipv4.Net → List Ipv4.Net) : Prop :=
  ∀ ns ip, (∃ n ∈ collapse_addresses ns, n.contains ip = true) ↔ ∃ n ∈ ns, n.contains ip = true

/-- Entries that the agent takes for the same. -/
structure SameEntry (e e' : Agent.Geodata.Entry) : Prop where
  tag : e.tag = e'.tag
  inverse : e.inverse = e'.inverse
  matchesIp : e.inverse = false → e.matchesIp = e'.matchesIp

theorem sameEntry_cooked (hcollapse : Collapses collapse_addresses) {bs : List UInt8}
    (h : Cooks bs entry) (hlen : entry.tag.length < 2 ^ 64) :
    SameEntry (entryOf bs) (entryOf (cooked collapse_addresses entry)) := by
  obtain ⟨htag, -, hinverse, hnetworks⟩ := h.spec
  obtain ⟨htag', hinverse', hnetworks'⟩ := entryOf_cooked collapse_addresses hlen
  refine ⟨?_, ?_, fun hinv => ?_⟩
  · rw [htag', htag, entryOf, lastText]
    cases Wire.lastBytes 1 (fieldsOf bs) <;> rfl
  · rw [hinverse', hinverse]
    rfl
  · have hfalse : entry.inverse = false := by rw [hinverse]; exact hinv
    have hsame := hcollapse entry.networks
    rw [hnetworks] at hsame
    funext ip
    rw [Bool.eq_iff_iff, Agent.Geodata.Entry.matchesIp, Agent.Geodata.Entry.matchesIp, hnetworks',
      cookedNetworks, hfalse, hnetworks, List.any_map, List.any_eq_true, List.any_eq_true]
    simpa [entryOf] using (hsame ip).symm

theorem rel_getLast? {α β : Type} {R : α → β → Prop} {l : List α} {m : List β}
    (h : List.Forall₂ R l m) : Option.Rel R l.getLast? m.getLast? := by
  have hrev := List.forall₂_reverse_iff.mpr h
  rw [← List.head?_reverse, ← List.head?_reverse]
  generalize l.reverse = l at hrev
  generalize m.reverse = m at hrev
  cases hrev with
  | nil => exact .none
  | cons hab _ => exact .some hab

/-- **The last entry with a tag** matches the same addresses in both catalogs. -/
theorem Prepared.lastEntry (h : Prepared collapse_addresses original prepared es)
    (hcollapse : Collapses collapse_addresses) (tag : String) :
    Option.Rel (fun e e' => e.matchesIp = e'.matchesIp) (lastEntry true original.bytes tag)
      (lastEntry true prepared.bytes tag) := by
  have hentries : List.Forall₂ SameEntry (entriesOf original.bytes) (entriesOf prepared.bytes) := by
    rw [entriesOf, entriesOf, h.byteStrings, List.map_map, List.forall₂_map_left_iff,
      List.forall₂_map_right_iff]
    exact imp_right h.cooks fun bs entry he hcooks =>
      sameEntry_cooked hcollapse hcooks (h.length he).2
  -- inverse entries do not count
  let eligible : Agent.Geodata.Entry → Bool := fun e => e.tag = tag && !(true && e.inverse)
  have hfilter : List.Forall₂ SameEntry ((entriesOf original.bytes).filter eligible)
      ((entriesOf prepared.bytes).filter eligible) := by
    refine List.rel_filter (fun e e' he => ?_) hentries
    simp only [eligible, he.tag, he.inverse]
  refine rel_getLast? (imp_right hfilter fun e e' he' hsame => hsame.matchesIp ?_)
  have hmem : e'.tag = tag ∧ e'.inverse = false := by
    simpa [eligible] using (List.mem_filter.mp he').2
  rw [hsame.inverse, hmem.2]

/-! ## Decoding -/

/-- Merged networks with the same addresses. -/
structure SameNetworks (ns ns' : List Ipv4.Net) : Prop where
  left : Ipv4.Net.Separated ns
  right : Ipv4.Net.Separated ns'
  contains : ∀ ip, (∃ n ∈ ns, n.contains ip = true) ↔ ∃ n ∈ ns', n.contains ip = true

theorem sameNetworks_aggregate {e e' : Agent.Geodata.Entry} (h : e.matchesIp = e'.matchesIp) :
    SameNetworks (aggregate_ipv4 (e.networks.map Ipv4.Net.trunc))
      (aggregate_ipv4 (e'.networks.map Ipv4.Net.trunc)) where
  left := aggregate_ipv4_separated trunc_of_mem_map
  right := aggregate_ipv4_separated trunc_of_mem_map
  contains ip := by rw [contains_aggregate_entry, contains_aggregate_entry, h]

theorem Prepared.entry_of_lookup (h : Prepared collapse_addresses original prepared es) {f : IndexedFile}
    (hopen : IndexedFile.open prepared true = .ok f) {tag : String} {range : Range}
    (hr : f.entries.lookup tag = some range) :
    ∃ entry ∈ es, slice prepared range = cooked collapse_addresses entry := by
  have hs := sim_open prepared true
  rw [hopen] at hs
  obtain ⟨contents, hc, -, hsame⟩ := hs.isSome
  obtain ⟨fs, hfs, hc⟩ := Option.bind_eq_some_iff.mp hc
  obtain ⟨l, m, hcontents, -⟩ := List.lookup_eq_some_iff.mp ((lookup_sameEntries hsame tag).1 range hr).2
  have hmem := (foldlM_entryStep_mem hc).2 (tag, slice prepared range)
    (hcontents ▸ List.mem_append_right l List.mem_cons_self)
  have hstrings := h.byteStrings
  rw [fieldsOf, hfs, Option.getD_some] at hstrings
  rw [hstrings] at hmem
  obtain ⟨entry, he, heq⟩ := List.mem_map.mp hmem
  exact ⟨entry, he, heq.symm⟩

/-- **A tag that decodes in the original** decodes to the same addresses in the prepared catalog. -/
theorem Prepared.decoded (h : Prepared collapse_addresses original prepared es)
    (hcollapse : Collapses collapse_addresses) {f f' : IndexedFile}
    (hf : IndexedFile.open original true = .ok f) (hf' : IndexedFile.open prepared true = .ok f')
    {tag : String} {o : Option (List Ipv4.Net)} (hd : decoded f (decode_ip f.file) tag = .ok o) :
    ∃ o', decoded f' (decode_ip f'.file) tag = .ok o' ∧ Option.Rel SameNetworks o o' := by
  obtain ⟨hfile, hsome, hnone⟩ := open_spec hf tag
  obtain ⟨hfile', hsome', hnone'⟩ := open_spec hf' tag
  have hlast := h.lastEntry hcollapse tag
  cases hr : f.entries.lookup tag with
  | none =>
    rw [hnone hr] at hlast
    have ho : o = none := by
      rw [Agent.Geodata.decoded, hr] at hd
      exact (Except.ok.inj hd).symm
    cases hr' : f'.entries.lookup tag with
    | none =>
      refine ⟨none, by rw [Agent.Geodata.decoded, hr'], ?_⟩
      rw [ho]
      exact .none
    | some range' =>
      rw [(hsome' range' hr').2] at hlast
      cases hlast
  | some range =>
    obtain ⟨hv, he⟩ := hsome range hr
    rw [he] at hlast
    cases hr' : f'.entries.lookup tag with
    | none =>
      rw [hnone' hr'] at hlast
      cases hlast
    | some range' =>
      obtain ⟨hv', he'⟩ := hsome' range' hr'
      rw [he'] at hlast
      obtain ⟨entry, hentry, hslice⟩ := h.entry_of_lookup hf' hr'
      -- every network of a prepared entry can be read
      obtain ⟨ns', hns'⟩ : ∃ ns', decode_entry prepared range' (decode_ip prepared) = .ok ns' := by
        have hs := sim_decode_ip hv'
        obtain ⟨ns, hns⟩ := Option.isSome_iff_exists.mp
          (foldlM_ipStep_cooked collapse_addresses entry)
        rw [hslice, fields_cooked (h.length hentry).2, Option.bind_some, hns] at hs
        obtain ⟨ns', hns', -⟩ := hs.isOk
        exact ⟨ns', hns'⟩
      obtain ⟨ns, hns, rfl⟩ : ∃ ns, decode_entry original range (decode_ip original) = .ok ns ∧
          o = some ns := by
        rw [Agent.Geodata.decoded, hr, hfile] at hd
        dsimp only at hd
        cases hns : decode_entry original range (decode_ip original) with
        | error e => rw [hns] at hd; cases hd
        | ok ns => rw [hns] at hd; exact ⟨ns, rfl, (Except.ok.inj hd).symm⟩
      refine ⟨some ns', ?_, ?_⟩
      · rw [Agent.Geodata.decoded, hr', hfile']
        dsimp only
        rw [hns']
        rfl
      · rw [decode_ip_spec hv hns, decode_ip_spec hv' hns']
        cases hlast with
        | some hmatch => exact .some (sameNetworks_aggregate hmatch)

end

/-! ## Selecting -/

section

variable {source source' : Catalog}

/-- Catalogs with the same sites, whose decoded networks have the same addresses. -/
structure SameCatalog (source source' : Catalog) : Prop where
  sites : source'.sites = source.sites
  limits : source'.limits = source.limits
  ips : ∀ {tag o}, decoded source.ips (decode_ip source.ips.file) tag = .ok o →
    ∃ o', decoded source'.ips (decode_ip source'.ips.file) tag = .ok o' ∧
      Option.Rel SameNetworks o o'

/-- The same tags with the same addresses. -/
def SameIps (ips ips' : List (String × List Ipv4.Net)) : Prop :=
  List.Forall₂ (fun p p' => p.1 = p'.1 ∧ SameNetworks p.2 p'.2) ips ips'

theorem SameIps.lookup {ips ips' : List (String × List Ipv4.Net)} (h : SameIps ips ips')
    (tag : String) : Option.Rel SameNetworks (ips.lookup tag) (ips'.lookup tag) := by
  induction h with
  | nil => exact .none
  | @cons p p' _ _ hp _ ih =>
    rw [List.lookup_cons, List.lookup_cons, ← hp.1]
    cases tag == p.1 with
    | true => exact .some hp.2
    | false => exact ih

/-- Selections that differ in the networks alone. -/
structure SameSelection (st st' : Selection) : Prop where
  sites : st'.sites = st.sites
  ips : SameIps st.ips st'.ips
  site_bytes : st'.site_bytes = st.site_bytes
  regex_count : st'.regex_count = st.regex_count
  ip_intervals : st'.ip_intervals = st.ip_intervals

theorem charge_site_same (h : SameCatalog source source') {st st' a : Selection}
    (hst : SameSelection st st') {tag : String} (ha : charge_site source st tag = .ok a) :
    ∃ b, charge_site source' st' tag = .ok b ∧ SameSelection a b := by
  obtain ⟨hsites, hips, hbytes, hregex, hcount⟩ := hst
  unfold charge_site at *
  rw [h.sites, h.limits, hbytes]
  split at ha
  · cases ha
  · dsimp only at *
    split_ifs at ha with hle
    cases ha
    rw [if_pos hle]
    exact ⟨_, rfl, ⟨hsites, hips, rfl, hregex, hcount⟩⟩

theorem add_site_same (h : SameCatalog source source') {st st' a : Selection}
    (hst : SameSelection st st') {tag : String} {site : Option Site}
    (ha : add_site source st tag site = .ok a) :
    ∃ b, add_site source' st' tag site = .ok b ∧ SameSelection a b := by
  obtain ⟨hsites, hips, hbytes, hregex, hcount⟩ := hst
  unfold add_site at *
  rw [h.limits, hregex, hsites]
  split at ha
  · cases ha
  · dsimp only at *
    split_ifs at ha with hle
    cases ha
    rw [if_pos hle]
    exact ⟨_, rfl, ⟨rfl, hips, hbytes, rfl, hcount⟩⟩

theorem charge_ip_same (h : SameCatalog source source') {st st' a : Selection}
    (hst : SameSelection st st') {tag : String} (ha : charge_ip source st tag = .ok a) :
    ∃ b, charge_ip source' st' tag = .ok b ∧ SameSelection a b := by
  obtain ⟨hsites, hips, hbytes, hregex, hcount⟩ := hst
  have hintervals : intervals ((st'.ips.lookup tag).getD []) =
      intervals ((st.ips.lookup tag).getD []) := by
    have hrel := hips.lookup tag
    generalize st.ips.lookup tag = o at hrel
    generalize st'.ips.lookup tag = o' at hrel
    cases hrel with
    | none => rfl
    | some hnet => exact (intervals_congr hnet.left hnet.right hnet.contains).symm
  unfold charge_ip at *
  rw [h.limits, hcount, hintervals]
  dsimp only at *
  split_ifs at ha with hle
  cases ha
  rw [if_pos hle]
  exact ⟨_, rfl, ⟨hsites, hips, hbytes, hregex, rfl⟩⟩

theorem add_ip_same {st st' a : Selection} (hst : SameSelection st st') {tag : String}
    {o o' : Option (List Ipv4.Net)} (ho : Option.Rel SameNetworks o o')
    (ha : add_ip st tag o = .ok a) : ∃ b, add_ip st' tag o' = .ok b ∧ SameSelection a b := by
  cases ho with
  | none => cases ha
  | some hnet =>
    cases ha
    exact ⟨_, rfl, ⟨hst.sites, .cons ⟨rfl, hnet⟩ hst.ips, hst.site_bytes, hst.regex_count,
      hst.ip_intervals⟩⟩

variable [RegexEngine] {α β γ δ : Type}

/-- What the first run selects, the second selects as well, up to `R`. -/
def Carries (source source' : Catalog) (R : α → β → Prop) (m : Select α) (m' : Select β) : Prop :=
  ∀ c c', CachesOk source c → CachesOk source' c' → ∀ a, (m c).1 = .ok a →
    CachesOk source (m c).2 ∧ CachesOk source' (m' c').2 ∧ ∃ b, (m' c').1 = .ok b ∧ R a b

theorem Carries.pure {R : α → β → Prop} {a : α} {b : β} (h : R a b) :
    Carries source source' R (Pure.pure a) (Pure.pure b) :=
  fun _ _ hc hc' _ he => ⟨hc, hc', b, rfl, Except.ok.inj he ▸ h⟩

theorem Carries.lift {R : α → β → Prop} {x : Except String α} {y : Except String β}
    (h : ∀ a, x = .ok a → ∃ b, y = .ok b ∧ R a b) :
    Carries source source' R (ExceptT.mk (Pure.pure x)) (ExceptT.mk (Pure.pure y)) :=
  fun _ _ hc hc' a he => ⟨hc, hc', h a he⟩

theorem Carries.bind {R : α → β → Prop} {S : γ → δ → Prop} {m : Select α} {m' : Select β}
    {k : α → Select γ} {k' : β → Select δ} (h : Carries source source' R m m')
    (hk : ∀ a b, R a b → Carries source source' S (k a) (k' b)) :
    Carries source source' S (m >>= k) (m' >>= k') := by
  intro c c' hc hc' x hx
  rw [run_bind] at hx
  rw [run_bind, run_bind]
  cases hm : m c with
  | mk r d =>
    cases r with
    | error e =>
      rw [hm] at hx
      cases hx
    | ok a =>
      obtain ⟨hd, hd', b, hb, hab⟩ := h c c' hc hc' a (by rw [hm])
      rw [hm] at hx hd
      cases hm' : m' c' with
      | mk r' d' =>
        rw [hm'] at hb hd'
        dsimp only at hb
        subst hb
        exact hk a b hab d d' hd hd' x hx

theorem Carries.foldlM {R : α → β → Prop} {ι : Type} {f : α → ι → Select α}
    {f' : β → ι → Select β} (hf : ∀ a b i, R a b → Carries source source' R (f a i) (f' b i))
    {l : List ι} {a : α} {b : β} (h : R a b) :
    Carries source source' R (l.foldlM f a) (l.foldlM f' b) := by
  induction l generalizing a b with
  | nil => exact .pure h
  | cons i l ih => exact (hf a b i h).bind fun a b h => ih h

theorem carries_get_site (h : SameCatalog source source') (alive alive' : Liveness)
    (tag : String) :
    Carries source source' Eq (get_site source alive tag) (get_site source' alive' tag) := by
  intro c c' hc hc' o ho
  have hg := get_spec hc.1 (alive.sites tag) tag
  have hg' := get_spec hc'.1 (alive'.sites tag) tag
  have hsame : decoded source'.sites (decode_site source'.sites.file source'.limits) tag =
      decoded source.sites (decode_site source.sites.file source.limits) tag := by
    rw [h.sites, h.limits]
  exact ⟨⟨hg.2, hc.2⟩, ⟨hg'.2, hc'.2⟩, o, hg'.1.trans (hsame.trans (hg.1.symm.trans ho)), rfl⟩

theorem carries_get_ip (h : SameCatalog source source') (alive alive' : Liveness) (tag : String) :
    Carries source source' (Option.Rel SameNetworks) (get_ip source alive tag)
      (get_ip source' alive' tag) := by
  intro c c' hc hc' o ho
  have hg := get_spec hc.2 (alive.ips tag) tag
  have hg' := get_spec hc'.2 (alive'.ips tag) tag
  obtain ⟨o', ho', hrel⟩ := h.ips (hg.1.symm.trans ho)
  exact ⟨⟨hc.1, hg.2⟩, ⟨hc'.1, hg'.2⟩, o', hg'.1.trans ho', hrel⟩

theorem carries_select_site (h : SameCatalog source source') (alive alive' : Liveness)
    {st st' : Selection} (hst : SameSelection st st') (rule : Agent.DomainRule) :
    Carries source source' SameSelection (select_site source alive st rule)
      (select_site source' alive' st' rule) := by
  unfold select_site
  split
  · rename_i tag hen hm
    rw [hst.sites]
    split
    · exact .pure hst
    · refine Carries.bind (.lift fun a ha => charge_site_same h hst ha) fun a b hab => ?_
      refine (carries_get_site h alive alive' tag).bind fun o o' ho => ?_
      subst ho
      exact .lift fun a' ha' => add_site_same h hab ha'
  · exact .pure hst

theorem carries_select_ip (h : SameCatalog source source') (alive alive' : Liveness)
    {st st' : Selection} (hst : SameSelection st st') (rule : Agent.IpRule) :
    Carries source source' SameSelection (select_ip source alive st rule)
      (select_ip source' alive' st' rule) := by
  unfold select_ip
  split
  · rename_i tag hen hm
    refine Carries.bind (R := SameSelection) ?_ fun a b hab =>
      .lift fun a' ha' => charge_ip_same h hab ha'
    have hsome : (st'.ips.lookup tag).isSome = (st.ips.lookup tag).isSome := by
      have hrel := hst.ips.lookup tag
      generalize st.ips.lookup tag = o at hrel
      generalize st'.ips.lookup tag = o' at hrel
      cases hrel <;> rfl
    unfold ensure_ip
    rw [hsome]
    split
    · exact .pure hst
    · exact (carries_get_ip h alive alive' tag).bind fun o o' ho =>
        .lift fun a ha => add_ip_same hst ho ha
  · exact .pure hst

/-- **A selection carries over** to a catalog with the same addresses. -/
theorem carries_select (h : SameCatalog source source') {g g' : GeoData}
    (hg : g.source = some source) (hg' : g'.source = some source') (alive alive' : Liveness)
    (config : Agent.RoutingConfig) :
    Carries source source' (fun s s' => s'.sites = s.sites ∧ SameIps s.ips s'.ips)
      (g.select alive config) (g'.select alive' config) := by
  unfold GeoData.select
  rw [hg, hg']
  dsimp only
  split
  · exact .pure ⟨rfl, .nil⟩
  · refine (Carries.foldlM (R := SameSelection)
      (fun st st' rule hst => carries_select_site h alive alive' hst rule)
      (a := .empty) (b := .empty) ⟨rfl, .nil, rfl, rfl, rfl⟩).bind fun st st' hst => ?_
    refine (Carries.foldlM (R := SameSelection)
      (fun st st' rule hst => carries_select_ip h alive alive' hst rule) hst).bind fun st st' hst => ?_
    exact .pure ⟨hst.sites, hst.ips⟩

/-- **Preparing a catalog keeps its meaning**: the prepared catalog opens unless a tag is too long;
if the agent opens the original, it also opens the prepared catalog, has the same tags there, and
every selection from the original succeeds there with the same addresses. -/
theorem prepare_faithful {collapse_addresses : List Ipv4.Net → List Ipv4.Net}
    (hcollapse : Collapses collapse_addresses) {original prepared : File} {out : Output}
    (hprepare : prepare collapse_addresses original.bytes = .ok out)
    (hbytes : prepared.bytes = out.bytes) :
    ((∃ f, IndexedFile.open prepared true = .ok f) ↔
      ∀ bs ∈ Wire.byteStrings 1 (fieldsOf original.bytes), ShortTag bs) ∧
    ∀ (geosite : File) (limits : ResourceLimits) (g : GeoData),
      GeoData.load_with_limits geosite original limits = .ok g →
      ∃ g', GeoData.load_with_limits geosite prepared limits = .ok g' ∧
        (∀ tag, g'.has_ip tag = g.has_ip tag) ∧
        ∀ history history' alive alive' config s,
          (g.select alive config (run_selects g history)).1 = .ok s →
          ∃ s', (g'.select alive' config (run_selects g' history')).1 = .ok s' ∧
            ∀ tag, SameNetworks (s.ip_networks tag) (s'.ip_networks tag) := by
  obtain ⟨es, hes, hout⟩ := prepare_spec hprepare
  have h : Prepared collapse_addresses original prepared es := ⟨hes, hbytes.trans hout⟩
  refine ⟨h.open_iff, fun geosite limits g hload => ?_⟩
  obtain ⟨source, rfl, rfl, hsites, hips⟩ := load_spec hload
  obtain ⟨f', hf'⟩ := h.open_iff.mpr (open_short hips)
  let g : GeoData := { GeoData.empty with source := some source }
  let source' : Catalog := ⟨source.sites, f', source.limits⟩
  let g' : GeoData := { GeoData.empty with source := some source' }
  have hg : g.source = some source := rfl
  have hg' : g'.source = some source' := rfl
  have hsame : SameCatalog source source' :=
    ⟨rfl, rfl, fun hd => h.decoded hcollapse hips hf' hd⟩
  refine ⟨g', ?_, fun tag => ?_, fun history history' alive alive' config s hs => ?_⟩
  · rw [GeoData.load_with_limits, hsites, hf']
    rfl
  · have hlast := h.lastEntry hcollapse tag
    obtain ⟨-, hsome, hnone⟩ := open_spec hips tag
    obtain ⟨-, hsome', hnone'⟩ := open_spec hf' tag
    show (f'.entries.lookup tag).isSome = (source.ips.entries.lookup tag).isSome
    cases hr : source.ips.entries.lookup tag with
    | none =>
      rw [hnone hr] at hlast
      cases hr' : f'.entries.lookup tag with
      | none => rfl
      | some range' => rw [(hsome' range' hr').2] at hlast; cases hlast
    | some range =>
      rw [(hsome range hr).2] at hlast
      cases hr' : f'.entries.lookup tag with
      | none => rw [hnone' hr'] at hlast; cases hlast
      | some range' => rfl
  · obtain ⟨-, -, s', hs', -, hips'⟩ := carries_select hsame hg hg' alive alive' config _ _
      (cachesOk_run_selects hg history) (cachesOk_run_selects hg' history') s hs
    refine ⟨s', hs', fun tag => ?_⟩
    have hrel := hips'.lookup tag
    unfold GeoData.ip_networks
    generalize s.ips.lookup tag = o at hrel
    generalize s'.ips.lookup tag = o' at hrel
    cases hrel with
    | none => exact ⟨.nil, .nil, fun ip => Iff.rfl⟩
    | some hnet => exact hnet

end

/-! ### Two small catalogs -/

/-- Tag `r` with the network `1.2.3.4/24` and an unknown field. -/
def rawIps : File :=
  ⟨[0x0a, 15, 0x0a, 1, 0x72, 0x12, 8, 0x0a, 4, 1, 2, 3, 4, 0x10, 24, 0x48, 1], by decide⟩

def rawData : GeoData :=
  { GeoData.empty with source := some { sampleCatalog with ips := ⟨rawIps, [("r", ⟨2, 15⟩)]⟩ } }

/-- `prepare_faithful` for this catalog, prepared without merging. -/
theorem prepare_faithful_sample :
    letI : RegexEngine := ⟨fun _ => true, fun _ _ => false⟩
    ∃ g', GeoData.load_with_limits sampleSites sampleIps sampleCatalog.limits = .ok g' ∧
      ∀ tag, g'.has_ip tag = rawData.has_ip tag := by
  let _ : RegexEngine := ⟨fun _ => true, fun _ _ => false⟩
  have hprepare : (prepare id rawIps.bytes).map Output.bytes = .ok sampleIps.bytes := by
    decide +kernel
  cases hout : prepare id rawIps.bytes with
  | error e => rw [hout] at hprepare; cases hprepare
  | ok out =>
    rw [hout] at hprepare
    obtain ⟨g', hg', htags, -⟩ := (prepare_faithful (fun ns ip => Iff.rfl) hout
      (Except.ok.inj hprepare).symm).2 sampleSites sampleCatalog.limits rawData (by decide +kernel)
    exact ⟨g', hg', htags⟩

/-- An entry whose tag has 65 bytes. -/
def longTag : File := ⟨[0x0a, 67, 0x0a, 65] ++ List.replicate 65 0x72, by decide⟩

/-- The script accepts a tag that the agent's index refuses. -/
theorem long_tag_refused : Collapses id ∧
    (prepare id longTag.bytes).map Output.bytes = .ok longTag.bytes ∧
      ∀ f, IndexedFile.open longTag true ≠ .ok f := by
  refine ⟨fun ns ip => Iff.rfl, by decide +kernel, fun f hf => ?_⟩
  have herror : (IndexedFile.open longTag true).isOk = false := by decide +kernel
  rw [hf] at herror
  cases herror

end Gofro.Deploy

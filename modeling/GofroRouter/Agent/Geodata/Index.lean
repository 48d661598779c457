import GofroRouter.Agent.Geodata.Aggregate
import GofroRouter.Agent.Geodata.Catalog
import GofroRouter.Agent.Geodata.Wire

/-!
# Opening and decoding a catalog

`geodata.rs`: `Site`, `IndexedFile::open`, `decode_site` and `decode_ip`. The index keeps the byte
range of the last entry for each tag.

* `Site.matches_iff`: a decoded site matches what its domains match.
* `decode_site_spec`, `decode_ip_spec`: decoding a range reads the entry in its bytes.
* **`open_spec`**: the index holds, for every tag, the range of the last entry with that tag.
-/

namespace Gofro.Agent.Geodata

/-! ## Sites -/

/-- The domains of an entry, sorted by their kinds. -/
structure Site where
  full : List String
  roots : List String
  keywords : List String
  regexes : List Regex
deriving DecidableEq

def Site.empty : Site := ⟨[], [], [], []⟩

/-- The texts after each dot. -/
def afterDots : List Char → List (List Char)
  | [] => []
  | c :: cs => if c = '.' then cs :: afterDots cs else afterDots cs

/-- What the entry says of a domain, with the domains sorted so. -/
def Site.matches [RegexEngine] (site : Site) (domain : String) : Bool :=
  site.full.contains domain || site.roots.contains domain ||
    (afterDots domain.toList).any (fun s => site.roots.contains (String.ofList s)) ||
    site.keywords.any (Text.contains domain) ||
    site.regexes.any (RegexEngine.is_match · domain)

/-! ## Decoding -/

/-- One field of a domain. -/
def domain_field (file : File) (s : ℕ × String) (number : ℕ) (value : Value) :
    Read (ℕ × String) :=
  match number, value with
  | 1, .integer v => return (v, s.2)
  | 2, .bytes range => return (s.1, ← string file range (128 * 1024))
  | 1, _ => fail "invalid GeoSite domain field"
  | 2, _ => fail "invalid GeoSite domain field"
  | _, _ => return s

/-- Add a domain of a kind to a site. -/
def add_domain [RegexEngine] (limits : ResourceLimits) (site : Site) (kind : ℕ)
    (value : String) : Except String Site :=
  match kind with
  | 0 => .ok { site with keywords := site.keywords ++ [Text.to_ascii_lowercase value] }
  | 1 =>
    let regex : Regex := ⟨value, limits.regex_size_bytes, limits.regex_cache_bytes⟩
    if limits.regex_count ≤ site.regexes.length then
      .error ("слишком много GeoSite regex для compact-профиля (максимум " ++
        toString limits.regex_count ++ ")")
    else if RegexEngine.builds regex then .ok { site with regexes := site.regexes ++ [regex] }
    else .error ("invalid GeoSite regex " ++ value)
  | 2 => .ok { site with roots := Text.to_ascii_lowercase value :: site.roots }
  | 3 => .ok { site with full := Text.to_ascii_lowercase value :: site.full }
  | kind => .error ("unsupported GeoSite domain type " ++ toString kind)

/-- One field of an entry; only domains are kept. -/
def site_field [RegexEngine] (file : File) (limits : ResourceLimits) (site : Site) (number : ℕ)
    (value : Value) : Read Site :=
  if number ≠ 2 then return site
  else match value with
    | .bytes range => do
      let (kind, value) ← within range (fields_loop file (domain_field file) (0, ""))
      fun r => (add_domain limits site kind value).map (·, r)
    | _ => fail "invalid GeoSite domain"

/-- An entry of the file of sites. -/
def decode_site [RegexEngine] (file : File) (limits : ResourceLimits) : Read Site :=
  fields_loop file (site_field file limits) .empty

/-- `address` and `prefix` of a CIDR. -/
def cidr_field (file : File) (s : Option (List UInt8) × ℕ) (number : ℕ) (value : Value) :
    Read (Option (List UInt8) × ℕ) :=
  match number, value with
  | 1, .bytes range =>
    if range.len = 4 then return (some (← bytes file 4 range), s.2) else return (none, s.2)
  | 2, .integer v => return (s.1, v)
  | 1, _ => fail "invalid GeoIP CIDR field"
  | 2, _ => fail "invalid GeoIP CIDR field"
  | _, _ => return s

/-- One field of an entry; only networks are kept. -/
def ip_field (file : File) (networks : List Ipv4.Net) (number : ℕ) (value : Value) :
    Read (List Ipv4.Net) :=
  if number ≠ 2 then return networks
  else match value with
    | .bytes range => do
      let (address, prefix_len) ← within range (fields_loop file (cidr_field file) (none, 0))
      return networks ++ ((address.bind (netOf · prefix_len)).map Ipv4.Net.trunc).toList
    | _ => fail "invalid GeoIP CIDR"

/-- An entry of the file of networks. -/
def decode_ip (file : File) : Read (List Ipv4.Net) := do
  return aggregate_ipv4 (← fields_loop file (ip_field file) [])

/-! ## The index -/

/-- An open catalog and the ranges of its entries by tag, the latest insertion first. -/
structure IndexedFile where
  file : File
  entries : List (String × Range)
deriving DecidableEq

/-- One field of an entry, when only its tag is wanted. -/
def header_field (file : File) (geoip : Bool) (s : String × Bool) (number : ℕ) (value : Value) :
    Read (String × Bool) :=
  match number, value with
  | 1, .bytes range => return (Text.to_ascii_lowercase (← string file range 64), s.2)
  | 3, .integer v => if geoip then return (s.1, v ≠ 0) else return s
  | 3, _ => if geoip then fail "invalid GeoIP inverse match" else return s
  | 1, _ => fail "invalid geodata tag"
  | _, _ => return s

/-- One field of the file; an entry is kept as its range. -/
def entry_field (file : File) (geoip : Bool) (entries : List (String × Range)) (number : ℕ)
    (value : Value) : Read (List (String × Range)) :=
  if number ≠ 1 then return entries
  else match value with
    | .bytes range => do
      let (tag, inverse) ← within range (fields_loop file (header_field file geoip) ("", false))
      return if inverse then entries else (tag, range) :: entries
    | _ => fail "invalid geodata entry"

/-- The index of a file: of each tag, where its entry is. -/
def IndexedFile.open (file : File) (geoip : Bool) : Except String IndexedFile := do
  let (entries, _) ← (fields_loop file (entry_field file geoip) []).run (Reader.new file)
  return ⟨file, entries⟩

/-- Decode the entry in a range. -/
def decode_entry {T : Type} (file : File) (range : Range) (decode : Read T) : Except String T :=
  ((within range decode).run (Reader.new file)).map Prod.fst

/-! ## Decoding one message -/

section

variable {file : File} {r : Reader} {number : ℕ} {v : Value} {w : Wire.Value}

/-- `domain_field` on the bytes of the field. -/
def domainStep (s : ℕ × String) : Wire.Field → Option (ℕ × String)
  | (1, .integer v) => some (v, s.2)
  | (2, .bytes bs) => (if bs.length ≤ 128 * 1024 then Text.from_utf8 bs else none).map (s.1, ·)
  | (1, _) => none
  | (2, _) => none
  | _ => some s

theorem restores_domain_field (s : ℕ × String) (hv : Stands file v w) (hr : r.Valid file) :
    Restores r Eq (domain_field file s number v) (domainStep s (number, w)) := by
  obtain ⟨rfl, hv⟩ := hv
  unfold domain_field
  split
  · exact .pure rfl
  · rename_i range
    rw [Value.contents, domainStep, Option.map_eq_bind]
    exact (restores_string hv hr).bind fun a b hab => .pure (by rw [hab])
  · rename_i h
    cases v with
    | integer v => exact absurd rfl (h v)
    | bytes range => exact .fail
    | fixed => exact .fail
  · rename_i h
    cases v with
    | integer v => exact .fail
    | bytes range => exact absurd rfl (h range)
    | fixed => exact .fail
  · rename_i h₁ h₂ h₃ h₄
    have hs : domainStep s (number, v.contents file) = some s := by
      unfold domainStep
      split <;> simp_all
    rw [hs]
    exact .pure rfl

/-- `cidr_field` on the bytes of the field. -/
def cidrStep (s : Option (List UInt8) × ℕ) : Wire.Field → Option (Option (List UInt8) × ℕ)
  | (1, .bytes bs) => some (if bs.length = 4 then some bs else none, s.2)
  | (2, .integer v) => some (s.1, v)
  | (1, _) => none
  | (2, _) => none
  | _ => some s

theorem restores_cidr_field (s : Option (List UInt8) × ℕ) (hv : Stands file v w)
    (hr : r.Valid file) :
    Restores r Eq (cidr_field file s number v) (cidrStep s (number, w)) := by
  obtain ⟨rfl, hv⟩ := hv
  unfold cidr_field
  split
  · rename_i range
    rw [Value.contents, cidrStep, slice_length hv]
    split
    · rename_i h4
      have := restores_bytes (n := 4) hv hr
      rw [slice_length hv, if_pos h4] at this
      exact this.bind (l := fun b => some (some b, s.2)) fun a b hab => .pure (by rw [hab])
    · exact .pure rfl
  · exact .pure rfl
  · rename_i h
    cases v with
    | integer v => exact .fail
    | bytes range => exact absurd rfl (h range)
    | fixed => exact .fail
  · rename_i h
    cases v with
    | integer v => exact absurd rfl (h v)
    | bytes range => exact .fail
    | fixed => exact .fail
  · have hs : cidrStep s (number, v.contents file) = some s := by
      unfold cidrStep
      split <;> simp_all
    rw [hs]
    exact .pure rfl

/-- `header_field` on the bytes of the field. -/
def headerStep (geoip : Bool) (s : String × Bool) : Wire.Field → Option (String × Bool)
  | (1, .bytes bs) => (if bs.length ≤ 64 then Text.from_utf8 bs else none).map fun tag =>
      (Text.to_ascii_lowercase tag, s.2)
  | (3, .integer v) => if geoip then some (s.1, v ≠ 0) else some s
  | (3, _) => if geoip then none else some s
  | (1, _) => none
  | _ => some s

theorem restores_header_field (geoip : Bool) (s : String × Bool) (hv : Stands file v w)
    (hr : r.Valid file) :
    Restores r Eq (header_field file geoip s number v) (headerStep geoip s (number, w)) := by
  obtain ⟨rfl, hv⟩ := hv
  unfold header_field
  split
  · rename_i range
    rw [Value.contents, headerStep, Option.map_eq_bind]
    exact (restores_string hv hr).bind fun a b hab => .pure (by rw [hab])
  · rw [Value.contents, headerStep]
    split <;> exact .pure rfl
  · rename_i h
    have hs : headerStep geoip s (3, v.contents file) = if geoip then none else some s := by
      cases v with
      | integer v => exact absurd rfl (h v)
      | bytes range => rfl
      | fixed => rfl
    rw [hs]
    split
    · exact .fail
    · exact .pure rfl
  · rename_i h
    cases v with
    | integer v => exact .fail
    | bytes range => exact absurd rfl (h range)
    | fixed => exact .fail
  · have hs : headerStep geoip s (number, v.contents file) = some s := by
      unfold headerStep
      split <;> simp_all
    rw [hs]
    exact .pure rfl

/-! ## What the steps add up to -/

theorem lastText_concat (n : ℕ) (fs : List Wire.Field) (f : Wire.Field) :
    lastText n (fs ++ [f]) = match f.2 with
      | .bytes bs => if f.1 = n then (Text.from_utf8 bs).getD "" else lastText n fs
      | _ => lastText n fs := by
  rw [lastText, Wire.lastBytes_concat]
  obtain ⟨m, v | bs⟩ := f
  · rfl
  · by_cases h : m = n <;> simp [h, lastText]
  · rfl

theorem foldlM_domainStep {fs : List Wire.Field} {s : ℕ × String}
    (h : fs.foldlM domainStep (0, "") = some s) :
    s = (Wire.lastInteger 1 fs, lastText 2 fs) := by
  refine foldlM_invariant (P := fun fs s => s = (Wire.lastInteger 1 fs, lastText 2 fs))
    (fun fs f s s' hs hf => ?_) rfl h
  subst hs
  rw [Wire.lastInteger_concat, lastText_concat]
  unfold domainStep at hf
  split at hf
  · cases hf; simp
  · rename_i bs
    obtain ⟨t, ht, rfl⟩ := Option.map_eq_some_iff.mp hf
    split_ifs at ht
    simp [ht]
  · cases hf
  · cases hf
  · rename_i h₁ h₂ h₃ h₄
    cases hf
    obtain ⟨m, v | bs⟩ := f
    · simp [show m ≠ 1 from fun h => h₃ _ (by rw [h])]
    · simp [show m ≠ 2 from fun h => h₄ _ (by rw [h])]
    · rfl

/-- The address of a CIDR: the last address field, if it has four bytes. -/
def address4 (fs : List Wire.Field) : Option (List UInt8) :=
  (Wire.lastBytes 1 fs).bind fun bs => if bs.length = 4 then some bs else none

theorem foldlM_cidrStep {fs : List Wire.Field} {s : Option (List UInt8) × ℕ}
    (h : fs.foldlM cidrStep (none, 0) = some s) :
    s = (address4 fs, Wire.lastInteger 2 fs) := by
  refine foldlM_invariant (P := fun fs s => s = (address4 fs, Wire.lastInteger 2 fs))
    (fun fs f s s' hs hf => ?_) rfl h
  subst hs
  rw [Wire.lastInteger_concat, address4, Wire.lastBytes_concat]
  unfold cidrStep at hf
  split at hf
  · cases hf; simp
  · cases hf; simp [address4]
  · cases hf
  · cases hf
  · rename_i h₁ h₂ h₃ h₄
    cases hf
    obtain ⟨m, v | bs⟩ := f
    · simp [show m ≠ 2 from fun h => h₄ _ (by rw [h]), address4]
    · simp [show m ≠ 1 from fun h => h₃ _ (by rw [h]), address4]
    · rfl

theorem cidrOf_eq {fs : List Wire.Field} {bs : List UInt8} (h : Wire.fields bs = some fs) :
    cidrOf bs = (address4 fs).bind (netOf · (Wire.lastInteger 2 fs)) := by
  rw [cidrOf, fieldsOf, h, Option.getD_some, address4]
  cases Wire.lastBytes 1 fs with
  | none => rfl
  | some a =>
    rw [Option.getD_some, Option.bind_some]
    split
    · rfl
    · rename_i hlen
      unfold netOf
      split
      · exact absurd rfl hlen
      · rfl

theorem foldlM_headerStep {geoip : Bool} {fs : List Wire.Field} {s : String × Bool}
    (h : fs.foldlM (headerStep geoip) ("", false) = some s) :
    s = (Text.to_ascii_lowercase (lastText 1 fs),
      geoip && decide (Wire.lastInteger 3 fs ≠ 0)) := by
  refine foldlM_invariant (P := fun fs s => s = (Text.to_ascii_lowercase (lastText 1 fs),
    geoip && decide (Wire.lastInteger 3 fs ≠ 0))) (fun fs f s s' hs hf => ?_)
    (by cases geoip <;> rfl) h
  subst hs
  rw [Wire.lastInteger_concat, lastText_concat]
  unfold headerStep at hf
  split at hf
  · obtain ⟨t, ht, rfl⟩ := Option.map_eq_some_iff.mp hf
    split_ifs at ht
    simp [ht]
  · split_ifs at hf with hg
    · cases hf; simp [hg]
    · cases hf; simp [hg]
  · rename_i w h
    split_ifs at hf with hg
    cases hf
    cases w <;> simp [hg]
  · cases hf
  · rename_i h₁ h₂ h₃ h₄
    cases hf
    obtain ⟨m, v | bs⟩ := f
    · simp [show m ≠ 3 from fun h => h₃ _ (by rw [h])]
    · simp [show m ≠ 1 from fun h => h₄ _ (by rw [h])]
    · rfl

/-! ## Entries -/

/-- A site holds the domains `ds`, sorted by kind. -/
structure SiteOf (limits : ResourceLimits) (site : Site) (ds : List Domain) : Prop where
  full : ∀ x, x ∈ site.full ↔ ∃ d ∈ ds, d.kind = 3 ∧ Text.to_ascii_lowercase d.value = x
  roots : ∀ x, x ∈ site.roots ↔ ∃ d ∈ ds, d.kind = 2 ∧ Text.to_ascii_lowercase d.value = x
  keywords : ∀ x, x ∈ site.keywords ↔ ∃ d ∈ ds, d.kind = 0 ∧ Text.to_ascii_lowercase d.value = x
  regexes : ∀ x, x ∈ site.regexes ↔ ∃ d ∈ ds, d.kind = 1 ∧
    (⟨d.value, limits.regex_size_bytes, limits.regex_cache_bytes⟩ : Regex) = x
  regex_count : site.regexes.length = (ds.filter (·.kind = 1)).length

theorem SiteOf.empty (limits : ResourceLimits) : SiteOf limits .empty [] := by
  constructor <;> simp [Site.empty]

/-- Whether a further domain can be added to a site. -/
def admits [RegexEngine] (limits : ResourceLimits) (ds : List Domain) (d : Domain) : Bool :=
  decide (d.kind ≤ 3) && (decide (d.kind ≠ 1) ||
    (decide ((ds.filter (·.kind = 1)).length < limits.regex_count) &&
      RegexEngine.builds ⟨d.value, limits.regex_size_bytes, limits.regex_cache_bytes⟩))

theorem sim_add_domain [RegexEngine] {limits : ResourceLimits} {site : Site} {ds : List Domain}
    (h : SiteOf limits site ds) (kind : ℕ) (value : String) :
    Sim (SiteOf limits) (add_domain limits site kind value)
      (if admits limits ds ⟨kind, value⟩ then some (ds ++ [⟨kind, value⟩]) else none) := by
  obtain ⟨h₁, h₂, h₃, h₄, h₅⟩ := h
  unfold add_domain
  split
  · rw [if_pos (by simp [admits])]
    refine .ok ⟨fun x => ?_, fun x => ?_, fun x => ?_, fun x => ?_, ?_⟩ <;>
      simp [h₁, h₂, h₃, h₄, h₅, or_and_right, exists_or, eq_comm]
  · by_cases hc : limits.regex_count ≤ site.regexes.length
    · rw [if_pos hc, if_neg]
      · exact .error _
      · simp only [admits, h₅ ▸ not_lt.mpr hc]
        simp
    · rw [if_neg hc]
      cases hb : RegexEngine.builds ⟨value, limits.regex_size_bytes, limits.regex_cache_bytes⟩ with
      | false =>
        rw [if_neg (by simp), if_neg (by simp [admits, hb])]
        exact .error _
      | true =>
        have hlt : (ds.filter (·.kind = 1)).length < limits.regex_count :=
          h₅ ▸ not_le.mp hc
        rw [if_pos rfl, if_pos (by simp [admits, hb, hlt])]
        refine .ok ⟨fun x => ?_, fun x => ?_, fun x => ?_, fun x => ?_, ?_⟩ <;>
          simp [h₁, h₂, h₃, h₄, h₅, or_and_right, exists_or, eq_comm]
  · rw [if_pos (by simp [admits])]
    refine .ok ⟨fun x => ?_, fun x => ?_, fun x => ?_, fun x => ?_, ?_⟩ <;>
      simp [h₁, h₂, h₃, h₄, h₅, or_and_right, exists_or, eq_comm, or_comm]
  · rw [if_pos (by simp [admits])]
    refine .ok ⟨fun x => ?_, fun x => ?_, fun x => ?_, fun x => ?_, ?_⟩ <;>
      simp [h₁, h₂, h₃, h₄, h₅, or_and_right, exists_or, eq_comm, or_comm]
  · rw [if_neg]
    · exact .error _
    · simp only [admits]
      have hk : ¬ kind ≤ 3 := fun hk => by interval_cases kind <;> contradiction
      simp [hk]

/-- `site_field` on the bytes of the field. -/
def siteStep [RegexEngine] (limits : ResourceLimits) (ds : List Domain) (f : Wire.Field) :
    Option (List Domain) :=
  if f.1 ≠ 2 then some ds
  else match f.2 with
    | .bytes bs => ((Wire.fields bs).bind fun fs => fs.foldlM domainStep (0, "")).bind fun s =>
        if admits limits ds ⟨s.1, s.2⟩ then some (ds ++ [⟨s.1, s.2⟩]) else none
    | _ => none

theorem restores_site_field [RegexEngine] {limits : ResourceLimits} {site : Site}
    {ds : List Domain} (h : SiteOf limits site ds) (hv : Stands file v w) (hr : r.Valid file) :
    Restores r (SiteOf limits) (site_field file limits site number v)
      (siteStep limits ds (number, w)) := by
  obtain ⟨rfl, hv⟩ := hv
  unfold site_field siteStep
  split
  · exact .pure h
  · cases v with
    | integer v => exact .fail
    | fixed => exact .fail
    | bytes range =>
      refine (restores_fields_loop (fun s t number v w r hst hv hr => ?_) hv hr rfl).bind ?_
      · exact hst ▸ restores_domain_field s hv hr
      · rintro ⟨k, t⟩ _ rfl
        exact .lift (sim_add_domain h k t)

/-- `ip_field` on the bytes of the field. -/
def ipStep (networks : List Ipv4.Net) (f : Wire.Field) : Option (List Ipv4.Net) :=
  if f.1 ≠ 2 then some networks
  else match f.2 with
    | .bytes bs => ((Wire.fields bs).bind fun fs => fs.foldlM cidrStep (none, 0)).map fun s =>
        networks ++ ((s.1.bind (netOf · s.2)).map Ipv4.Net.trunc).toList
    | _ => none

theorem restores_ip_field {networks : List Ipv4.Net} (hv : Stands file v w) (hr : r.Valid file) :
    Restores r Eq (ip_field file networks number v) (ipStep networks (number, w)) := by
  obtain ⟨rfl, hv⟩ := hv
  unfold ip_field ipStep
  split
  · exact .pure rfl
  · cases v with
    | integer v => exact .fail
    | fixed => exact .fail
    | bytes range =>
      show Restores r Eq _ (Option.map _ _)
      rw [Option.map_eq_bind]
      refine (restores_fields_loop (fun s t number v w r hst hv hr => ?_) hv hr rfl).bind ?_
      · exact hst ▸ restores_cidr_field s hv hr
      · rintro ⟨a, p⟩ _ rfl
        exact .pure rfl

/-- The ranges of an index and their bytes. -/
def SameEntries (file : File) (entries : List (String × Range))
    (contents : List (String × List UInt8)) : Prop :=
  List.Forall₂ (fun a b => a.1 = b.1 ∧ a.2.Valid file ∧ slice file a.2 = b.2) entries contents

/-- `entry_field` on the bytes of the field. -/
def entryStep (geoip : Bool) (entries : List (String × List UInt8)) (f : Wire.Field) :
    Option (List (String × List UInt8)) :=
  if f.1 ≠ 1 then some entries
  else match f.2 with
    | .bytes bs =>
      ((Wire.fields bs).bind fun fs => fs.foldlM (headerStep geoip) ("", false)).map fun s =>
        if s.2 then entries else (s.1, bs) :: entries
    | _ => none

theorem restores_entry_field {geoip : Bool} {entries : List (String × Range)}
    {contents : List (String × List UInt8)} (h : SameEntries file entries contents)
    (hv : Stands file v w) (hr : r.Valid file) :
    Restores r (SameEntries file) (entry_field file geoip entries number v)
      (entryStep geoip contents (number, w)) := by
  obtain ⟨rfl, hv⟩ := hv
  unfold entry_field entryStep
  split
  · exact .pure h
  · cases v with
    | integer v => exact .fail
    | fixed => exact .fail
    | bytes range =>
      show Restores r _ _ (Option.map _ _)
      rw [Option.map_eq_bind]
      refine (restores_fields_loop (fun s t number v w r hst hv hr => ?_) hv hr rfl).bind ?_
      · exact hst ▸ restores_header_field geoip s hv hr
      · rintro ⟨tag, inverse⟩ _ rfl
        refine .pure ?_
        cases inverse with
        | true => exact h
        | false => exact .cons ⟨rfl, hv, rfl⟩ h

end

/-! ## The decoders -/

variable {file : File} {range : Range}

theorem valid_new (file : File) : (Reader.new file).Valid file := ⟨Nat.zero_le _, le_rfl⟩

theorem sim_decode_entry {T U : Type} {R : T → U → Prop} {decode : Read T} {y : Option U}
    (h : Restores (Reader.new file) R (within range decode) y) :
    Sim R (decode_entry file range decode) y := by
  rw [Restores] at h
  rw [decode_entry]
  generalize (within range decode).run (Reader.new file) = x at h
  cases h with
  | ok h => exact .ok h.1
  | error e => exact .error e

theorem foldlM_siteStep [RegexEngine] {limits : ResourceLimits} {fs : List Wire.Field}
    {ds : List Domain} (h : fs.foldlM (siteStep limits) [] = some ds) :
    ds = (Wire.byteStrings 2 fs).map domainOf := by
  refine foldlM_invariant (P := fun fs ds => ds = (Wire.byteStrings 2 fs).map domainOf)
    (fun fs f ds ds' hs hf => ?_) rfl h
  subst hs
  obtain ⟨m, w⟩ := f
  unfold siteStep at hf
  split_ifs at hf with hm
  · cases hf
    cases w <;> simp [Wire.byteStrings, show m ≠ 2 from hm]
  · cases w with
    | integer v => cases hf
    | fixed => cases hf
    | bytes bs =>
      simp only at hf hm
      obtain ⟨s, hs, hf⟩ := Option.bind_eq_some_iff.mp hf
      obtain ⟨gs, hg, hs⟩ := Option.bind_eq_some_iff.mp hs
      split_ifs at hf
      cases hf
      rw [foldlM_domainStep hs]
      simp [Wire.byteStrings, not_not.mp hm, domainOf, fieldsOf, hg]

theorem foldlM_ipStep {fs : List Wire.Field} {networks : List Ipv4.Net}
    (h : fs.foldlM ipStep [] = some networks) :
    networks = ((Wire.byteStrings 2 fs).filterMap cidrOf).map Ipv4.Net.trunc := by
  refine foldlM_invariant (P := fun fs networks =>
    networks = ((Wire.byteStrings 2 fs).filterMap cidrOf).map Ipv4.Net.trunc)
    (fun fs f networks networks' hs hf => ?_) rfl h
  subst hs
  obtain ⟨m, w⟩ := f
  unfold ipStep at hf
  split_ifs at hf with hm
  · cases hf
    cases w <;> simp [Wire.byteStrings, show m ≠ 2 from hm]
  · cases w with
    | integer v => cases hf
    | fixed => cases hf
    | bytes bs =>
      simp only at hf hm
      obtain ⟨s, hs, rfl⟩ := Option.map_eq_some_iff.mp hf
      obtain ⟨gs, hg, hs⟩ := Option.bind_eq_some_iff.mp hs
      rw [foldlM_cidrStep hs, Wire.byteStrings_concat]
      simp only [← cidrOf_eq hg]
      cases hc : cidrOf bs <;> simp [Wire.byteStrings, not_not.mp hm, hc]

theorem sim_decode_site [RegexEngine] (limits : ResourceLimits) (h : range.Valid file) :
    Sim (SiteOf limits) (decode_entry file range (decode_site file limits))
      ((Wire.fields (slice file range)).bind fun fs => fs.foldlM (siteStep limits) []) :=
  sim_decode_entry <| restores_fields_loop
    (fun _ _ _ _ _ _ hst hv hr => restores_site_field hst hv hr) h (valid_new file) (.empty limits)

theorem sim_decode_ip (h : range.Valid file) :
    Sim (fun a b => a = aggregate_ipv4 b) (decode_entry file range (decode_ip file))
      ((Wire.fields (slice file range)).bind fun fs => fs.foldlM ipStep []) := by
  have hloop : Reads file ⟨range.start, range.start + range.len⟩ Eq
      (fields_loop file (ip_field file) []) ((Wire.fields _).bind fun fs =>
        (fs.foldlM ipStep []).map fun t => (t, [])) := reads_fields_loop
    (fun _ _ _ _ _ _ hst hv hr => hst ▸ restores_ip_field hv hr) h.reader rfl
  have := restores_within_reads h (valid_new file)
    (hloop.map (S := fun a b => a = aggregate_ipv4 b) (f := aggregate_ipv4)
      fun a b hab => by rw [hab])
  rw [window_range] at this
  simp only [Option.map_bind, Function.comp_def, Option.map_map, Option.map_id'] at this
  exact sim_decode_entry this

/-- **Decoding a site** reads the domains of the entry. -/
theorem decode_site_spec [RegexEngine] {limits : ResourceLimits} {site : Site}
    (h : range.Valid file) (hd : decode_entry file range (decode_site file limits) = .ok site) :
    SiteOf limits site (entryOf (slice file range)).domains := by
  have hs := sim_decode_site limits h
  rw [hd] at hs
  obtain ⟨ds, hds, hsite⟩ := hs.isSome
  obtain ⟨fs, hfs, hds⟩ := Option.bind_eq_some_iff.mp hds
  rw [foldlM_siteStep hds] at hsite
  rwa [entryOf, fieldsOf, hfs, Option.getD_some]

/-- **Decoding networks** reads and merges the IPv4 networks of the entry. -/
theorem decode_ip_spec {networks : List Ipv4.Net} (h : range.Valid file)
    (hd : decode_entry file range (decode_ip file) = .ok networks) :
    networks = aggregate_ipv4 ((entryOf (slice file range)).networks.map Ipv4.Net.trunc) := by
  have hs := sim_decode_ip h
  rw [hd] at hs
  obtain ⟨ns, hns, rfl⟩ := hs.isSome
  obtain ⟨fs, hfs, hns⟩ := Option.bind_eq_some_iff.mp hns
  rw [foldlM_ipStep hns, entryOf, fieldsOf, hfs, Option.getD_some]

/-! ## Opening -/

theorem window_new (file : File) : window file (Reader.new file) = file.bytes := by
  rw [window, Reader.new, List.take_length, List.drop_zero]

theorem sim_open (file : File) (geoip : Bool) :
    Sim (fun f contents => f.file = file ∧ SameEntries file f.entries contents)
      (IndexedFile.open file geoip)
      ((Wire.fields file.bytes).bind fun fs => fs.foldlM (entryStep geoip) []) := by
  have hloop : Reads file (Reader.new file) (SameEntries file)
      (fields_loop file (entry_field file geoip) []) ((Wire.fields _).bind fun fs =>
        (fs.foldlM (entryStep geoip) []).map fun t => (t, [])) := reads_fields_loop (fun _ _ _ _ _ _ hst hv hr => restores_entry_field hst hv hr)
    (valid_new file) .nil
  rw [window_new] at hloop
  have := Sim.bind (k := fun p => Pure.pure (⟨file, p.1⟩ : IndexedFile)) (l := fun p => some p.1)
    (S := fun f contents => f.file = file ∧ SameEntries file f.entries contents) hloop
    fun a b hab => .pure ⟨rfl, hab.1⟩
  simp only [Option.bind_map, Option.bind_assoc, Function.comp_def, Option.bind_fun_some] at this
  exact this

theorem foldlM_entryStep {geoip : Bool} {fs : List Wire.Field}
    {contents : List (String × List UInt8)}
    (h : fs.foldlM (entryStep geoip) [] = some contents) (tag : String) :
    (contents.lookup tag).map entryOf = (((Wire.byteStrings 1 fs).map entryOf).filter
      fun e => e.tag = tag && !(geoip && e.inverse)).getLast? := by
  refine foldlM_invariant (P := fun fs contents => (contents.lookup tag).map entryOf =
    (((Wire.byteStrings 1 fs).map entryOf).filter
      fun e => e.tag = tag && !(geoip && e.inverse)).getLast?)
    (fun fs f contents contents' hs hf => ?_) rfl h
  obtain ⟨m, w⟩ := f
  rw [Wire.byteStrings_concat, List.map_append, List.filter_append]
  unfold entryStep at hf
  split_ifs at hf with hm
  · cases hf
    have : Wire.byteStrings 1 [(m, w)] = [] := by
      cases w <;> simp [Wire.byteStrings, show m ≠ 1 from hm]
    rw [this]
    simpa using hs
  · cases w with
    | integer v => cases hf
    | fixed => cases hf
    | bytes bs =>
      simp only at hf hm
      obtain ⟨s, hs', rfl⟩ := Option.map_eq_some_iff.mp hf
      obtain ⟨gs, hg, hs'⟩ := Option.bind_eq_some_iff.mp hs'
      have hhead := foldlM_headerStep hs'
      have htag : (entryOf bs).tag = s.1 := by rw [hhead, entryOf, fieldsOf, hg]; rfl
      have hinv : (geoip && (entryOf bs).inverse) = s.2 := by
        rw [hhead, entryOf, fieldsOf, hg]; rfl
      have hbs : Wire.byteStrings 1 [(m, .bytes bs)] = [bs] := by
        simp [Wire.byteStrings, not_not.mp hm]
      rw [hbs, List.map_singleton, List.filter_singleton, htag, hinv]
      cases s.2 with
      | true => simpa using hs
      | false =>
        by_cases ht : s.1 = tag
        · subst ht
          simp
        · have hne : (tag == s.1) = false := by simpa using Ne.symm ht
          simp [ht, List.lookup_cons, hne, hs]

theorem lookup_sameEntries {entries : List (String × Range)}
    {contents : List (String × List UInt8)} (h : SameEntries file entries contents)
    (tag : String) :
    (∀ range, entries.lookup tag = some range →
      range.Valid file ∧ contents.lookup tag = some (slice file range)) ∧
      (entries.lookup tag = none → contents.lookup tag = none) := by
  induction h with
  | nil => simp
  | @cons a b as bs hab _ ih =>
    obtain ⟨t, range⟩ := a
    obtain ⟨u, c⟩ := b
    obtain ⟨rfl, hv, rfl⟩ := hab
    simp only [List.lookup_cons]
    cases tag == t with
    | true => simpa using hv
    | false => exact ih

/-- **The index** holds, for every tag, the range of the last entry with that tag. -/
theorem open_spec {geoip : Bool} {f : IndexedFile} (h : IndexedFile.open file geoip = .ok f)
    (tag : String) : f.file = file ∧ (∀ range, f.entries.lookup tag = some range →
      range.Valid file ∧ lastEntry geoip file.bytes tag = some (entryOf (slice file range))) ∧
      (f.entries.lookup tag = none → lastEntry geoip file.bytes tag = none) := by
  have hs := sim_open file geoip
  rw [h] at hs
  obtain ⟨contents, hc, hfile, hsame⟩ := hs.isSome
  obtain ⟨fs, hfs, hc⟩ := Option.bind_eq_some_iff.mp hc
  have hlook := foldlM_entryStep hc tag
  have hlast : lastEntry geoip file.bytes tag = (contents.lookup tag).map entryOf := by
    rw [hlook, lastEntry, entriesOf, fieldsOf, hfs, Option.getD_some]
  obtain ⟨h₁, h₂⟩ := lookup_sameEntries hsame tag
  refine ⟨hfile, fun range hr => ⟨(h₁ range hr).1, ?_⟩, fun hn => ?_⟩
  · rw [hlast, (h₁ range hr).2, Option.map_some]
  · rw [hlast, h₂ hn, Option.map_none]

end Gofro.Agent.Geodata

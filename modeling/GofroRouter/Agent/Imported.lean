import GofroRouter.Agent.Enrollment
import GofroRouter.Server.Store

/-!
# A profile from the server

What `format_profile` of the server writes, and what the agent reads in it.

* `lines_format_profile`: its lines; `line_of_entry`: what a line `Key = value` says.
* `body_format_profile`: the seven parameters.
* **`profile_round_trip`**: the agent reads back what the server has written.
-/

namespace Gofro.Agent

open Text
open Server (format_profile validate_tunnel_ip validate_managed_endpoint validate_peer_key)

/-! ## Lines -/

theorem trim_matches_append {p : Char → Bool} {cs : List Char} {c : Char} (hc : p c = true)
    (h : ∀ d ∈ cs, p d = false) : trim_matches p (cs ++ [c]) = cs := by
  cases cs with
  | nil => simp [trim_matches, trimEnd, hc]
  | cons d ds =>
    have hd : p d = false := h d List.mem_cons_self
    have hdrop : (d :: ds ++ [c]).dropWhile p = d :: ds ++ [c] :=
      dropWhile_eq_self.mpr (by simpa using hd)
    have hend : trimEnd p (d :: ds) = d :: ds :=
      trimEnd_eq_self.mpr fun e he => h e (List.mem_of_getLast? he)
    rw [trim_matches, hdrop, trimEnd, List.reverse_append, List.reverse_singleton,
      List.singleton_append, List.dropWhile_cons_of_pos hc]
    exact hend

/-- A line of a profile. -/
def entry_line (key value : String) : List Char := key.toList ++ ' ' :: '=' :: ' ' :: value.toList

/-- A value without white space. -/
def Printable (value : String) : Prop :=
  value.toList ≠ [] ∧ ∀ c ∈ value.toList, is_whitespace c = false

theorem printable_of_all {value : String}
    (h : (!value.toList.isEmpty && value.toList.all (!is_whitespace ·)) = true) : Printable value := by
  simpa [Printable] using h

theorem Param.key_ne_nil (p : Param) : p.key.toList ≠ [] := by
  cases p <;> decide

theorem Param.key_chars (p : Param) : ∀ c ∈ p.key.toList, is_ascii_alphanumeric c = true := by
  rw [← List.all_eq_true]
  cases p <;> decide

theorem line_of_entry (p : Param) {value : String} (h : Printable value) :
    line_of (entry_line p.key value) = .entry p.key value := by
  have hchars := p.key_chars
  have hws : ∀ c ∈ p.key.toList, is_whitespace c = false := fun c hc =>
    not_whitespace_of_alphanumeric (hchars c hc)
  have hne : ∀ d, is_ascii_alphanumeric d = false → d ∉ p.key.toList := fun d hd hm => by
    rw [hchars d hm] at hd
    cases hd
  obtain ⟨k, ks, hk⟩ := List.exists_cons_of_ne_nil p.key_ne_nil
  have hhead : is_ascii_alphanumeric k = true := hchars k (by rw [hk]; exact List.mem_cons_self)
  have htrim : trim_matches is_whitespace value.toList = value.toList := trim_matches_of_not h.2
  -- neither end of the line is white space
  have hline : trim_matches is_whitespace (entry_line p.key value) = entry_line p.key value := by
    refine trim_matches_eq_self.mpr ⟨fun c hc => ?_, fun c hc => ?_⟩
    · rw [entry_line, hk] at hc
      cases hc
      exact not_whitespace_of_alphanumeric hhead
    · have hlast : (entry_line p.key value).getLast? = value.toList.getLast? := by
        rw [entry_line]
        cases hv : value.toList with
        | nil => exact absurd hv h.1
        | cons v vs => simp [List.getLast?_append, List.getLast?_cons]
      rw [hlast] at hc
      exact (trim_matches_eq_self.mp htrim).2 c hc
  have hsplit : split_once '=' (entry_line p.key value) =
      some (p.key.toList ++ [' '], ' ' :: value.toList) := by
    have hkey : '=' ∉ p.key.toList ++ [' '] := by simp [hne '=' (by decide)]
    have hs := split_once_append hkey (' ' :: value.toList)
    simpa [entry_line] using hs
  have hleft : trim_matches is_whitespace (p.key.toList ++ [' ']) = p.key.toList :=
    trim_matches_append (by decide) hws
  have hright : trim_matches is_whitespace (' ' :: value.toList) = value.toList := htrim
  have hnot : ∀ d, is_ascii_alphanumeric d = false → k ≠ d := fun d hd he => by
    rw [← he, hhead] at hd
    cases hd
  simp only [line_of, hline, hsplit, hleft, hright, String.ofList_toList]
  simp [entry_line, hk, hnot '#' (by decide), hnot ';' (by decide), hnot '[' (by decide)]

theorem ended_of_printable {start : List Char} {value : String} (h : Printable value)
    (hstart : '\n' ∉ start) :
    '\n' ∉ start ++ value.toList ∧ (start ++ value.toList).getLast? ≠ some '\r' := by
  have hnot : ∀ c, is_whitespace c = true → c ∉ value.toList := fun c hc hm => by
    rw [h.2 c hm] at hc
    cases hc
  constructor
  · rw [List.mem_append, not_or]
    exact ⟨hstart, hnot _ (by decide)⟩
  · intro hlast
    rw [List.getLast?_append_of_ne_nil _ h.1] at hlast
    exact hnot _ (by decide) (List.mem_of_getLast? hlast)

theorem entry_ended (p : Param) {value : String} (h : Printable value) :
    '\n' ∉ entry_line p.key value ∧ (entry_line p.key value).getLast? ≠ some '\r' := by
  have hkey : '\n' ∉ p.key.toList ++ [' ', '=', ' '] := by
    cases p <;> decide
  have hline : entry_line p.key value = (p.key.toList ++ [' ', '=', ' ']) ++ value.toList := by
    simp [entry_line]
  rw [hline]
  exact ended_of_printable h hkey

/-- The values of a profile that the server writes. -/
def written (private_key server_public_key endpoint tunnel_ip : String) : Param → String
  | .private_key => private_key
  | .address => tunnel_ip
  | .mtu => Relay.TUNNEL_MTU.repr
  | .public_key => server_public_key
  | .allowed_ips => "0.0.0.0/0"
  | .endpoint => endpoint
  | .keepalive => "10"

/-- The lines of the profile that the server prints. -/
def profile_lines (client_public_key : String) (values : Param → String) : List (List Char) :=
  ["# ClientPublicKey = ".toList ++ client_public_key.toList, "[Interface]".toList,
    entry_line Param.private_key.key (values .private_key),
    entry_line Param.address.key (values .address), entry_line Param.mtu.key (values .mtu), [],
    "[Peer]".toList, entry_line Param.public_key.key (values .public_key),
    entry_line Param.allowed_ips.key (values .allowed_ips),
    entry_line Param.endpoint.key (values .endpoint),
    entry_line Param.keepalive.key (values .keepalive)]

section

variable {private_key client_public_key server_public_key endpoint tunnel_ip : String}

theorem toList_format_profile :
    (format_profile private_key client_public_key server_public_key endpoint tunnel_ip).toList =
      (profile_lines client_public_key
        (written private_key server_public_key endpoint tunnel_ip)).flatMap
          fun line => line ++ ['\n'] := by
  have hinterface : "\n[Interface]\nPrivateKey = ".toList =
      '\n' :: ("[Interface]".toList ++ '\n' :: ("PrivateKey".toList ++ [' ', '=', ' '])) := by
    decide
  have haddress : "\nAddress = ".toList = '\n' :: ("Address".toList ++ [' ', '=', ' ']) := by
    decide
  have hmtu : "\nMTU = ".toList = '\n' :: ("MTU".toList ++ [' ', '=', ' ']) := by decide
  have hpeer : "\n\n[Peer]\nPublicKey = ".toList =
      '\n' :: '\n' :: ("[Peer]".toList ++ '\n' :: ("PublicKey".toList ++ [' ', '=', ' '])) := by
    decide
  have hips : "\nAllowedIPs = 0.0.0.0/0\nEndpoint = ".toList =
      '\n' :: ("AllowedIPs".toList ++ ' ' :: '=' :: ' ' :: ("0.0.0.0/0".toList ++
        '\n' :: ("Endpoint".toList ++ [' ', '=', ' ']))) := by
    decide
  have hend : "\nPersistentKeepalive = 10\n".toList =
      '\n' :: ("PersistentKeepalive".toList ++ ' ' :: '=' :: ' ' :: ("10".toList ++ ['\n'])) := by
    decide
  unfold format_profile profile_lines entry_line written Param.key
  simp only [String.toList_append, hinterface, haddress, hmtu, hpeer, hips, hend]
  simp only [List.flatMap_cons, List.flatMap_nil, List.append_assoc, List.cons_append,
    List.nil_append, List.append_nil]

theorem printable_written (hprivate : Printable private_key) (hserver : Printable server_public_key)
    (hendpoint : Printable endpoint) (haddress : Printable tunnel_ip) (p : Param) :
    Printable (written private_key server_public_key endpoint tunnel_ip p) := by
  cases p with
  | private_key => exact hprivate
  | address => exact haddress
  | mtu => exact show Printable Relay.TUNNEL_MTU.repr from printable_of_all (by decide)
  | public_key => exact hserver
  | allowed_ips => exact show Printable "0.0.0.0/0" from printable_of_all (by decide)
  | endpoint => exact hendpoint
  | keepalive => exact show Printable "10" from printable_of_all (by decide)

theorem lines_of_profile_lines {values : Param → String} (hclient : Printable client_public_key)
    (hvalues : ∀ p, Printable (values p)) {profile : String}
    (h : profile.toList = (profile_lines client_public_key values).flatMap
      fun line => line ++ ['\n']) : lines profile = profile_lines client_public_key values := by
  refine lines_of_ended ?_ h
  simp only [profile_lines, List.forall_mem_cons]
  exact ⟨ended_of_printable hclient (by decide), by decide,
    entry_ended _ (hvalues _), entry_ended _ (hvalues _), entry_ended _ (hvalues _),
    by decide, by decide, entry_ended _ (hvalues _), entry_ended _ (hvalues _),
    entry_ended _ (hvalues _), entry_ended _ (hvalues _), fun _ hm => absurd hm List.not_mem_nil⟩

theorem line_of_comment (h : Printable client_public_key) :
    line_of ("# ClientPublicKey = ".toList ++ client_public_key.toList) = .blank := by
  have hline : trim_matches is_whitespace
      ("# ClientPublicKey = ".toList ++ client_public_key.toList) =
        "# ClientPublicKey = ".toList ++ client_public_key.toList := by
    refine trim_matches_eq_self.mpr ⟨fun c hc => ?_, fun c hc => ?_⟩
    · have hhead : some '#' = some c := hc
      cases hhead
      decide
    · rw [List.getLast?_append_of_ne_nil _ h.1] at hc
      exact h.2 c (List.mem_of_getLast? hc)
  have hhead : ("# ClientPublicKey = ".toList ++ client_public_key.toList).head? = some '#' := rfl
  simp only [line_of, hline, hhead]
  simp

theorem body_profile_lines {values : Param → String} (hclient : Printable client_public_key)
    (hvalues : ∀ p, Printable (values p)) :
    body .none (profile_lines client_public_key values) = profile values := by
  have hcomment := line_of_comment hclient
  have hinterface : line_of "[Interface]".toList = .header .interface := by decide
  have hpeer : line_of "[Peer]".toList = .header .peer := by decide
  have hblank : line_of [] = .blank := by decide
  simp only [profile_lines, body, hcomment, hinterface, hpeer, hblank, line_of_entry _ (hvalues _)]
  rfl

end

/-! ## Values -/

theorem key_chars {key kind : String} (h : validate_wireguard_key key kind = .ok ()) :
    len key = 44 ∧ key.toList ≠ [] ∧
      ∀ c ∈ key.toList, is_ascii_alphanumeric c = true ∨ c = '+' ∨ c = '/' ∨ c = '=' := by
  simp only [validate_wireguard_key, bail_if_eq_ok, Bool.or_eq_false_iff, bne_eq_false_iff_eq,
    Bool.not_eq_false', List.all_eq_true, Bool.or_eq_true, decide_eq_true_eq] at h
  obtain ⟨⟨hlen, hlast⟩, hall⟩ := h
  have hsplit : key.toList.dropLast ++ ['='] = key.toList := List.dropLast_append_getLast? _ hlast
  refine ⟨hlen, fun hnil => ?_, fun c hc => ?_⟩
  · rw [hnil] at hlast
    cases hlast
  · rw [← hsplit, List.mem_append, List.mem_singleton] at hc
    rcases hc with hc | rfl
    · rcases hall c hc with (ha | rfl) | rfl
      · exact .inl ha
      · exact .inr (.inl rfl)
      · exact .inr (.inr (.inl rfl))
    · exact .inr (.inr (.inr rfl))

theorem printable_key {key kind : String} (h : validate_wireguard_key key kind = .ok ()) :
    Printable key := by
  obtain ⟨-, hne, hall⟩ := key_chars h
  refine ⟨hne, fun c hc => ?_⟩
  rcases hall c hc with ha | rfl | rfl | rfl
  · exact not_whitespace_of_alphanumeric ha
  · decide
  · decide
  · decide

theorem validate_wireguard_key_of_peer {key : String} (h : validate_peer_key key = .ok ())
    (kind : String) : validate_wireguard_key key kind = .ok () := by
  rw [validate_peer_key, bail_if_eq_ok] at h
  rw [validate_wireguard_key, bail_if_eq_ok]
  exact h

theorem profile_client_public_key_of_lines {client_public_key profile : String}
    {values : Param → String} (h : validate_peer_key client_public_key = .ok ())
    (hlines : lines profile = profile_lines client_public_key values) :
    profile_client_public_key profile = .ok client_public_key := by
  have hfind : (lines profile).findSome? (fun line =>
      strip_start line "# ClientPublicKey = ".toList) = some client_public_key.toList := by
    rw [hlines, profile_lines, List.findSome?_cons, strip_start_append]
  have hkey : (byteLen client_public_key.toList != 44 || client_public_key.toList.getLast? != some '=' ||
      !(client_public_key.toList.dropLast.all fun c => is_ascii_alphanumeric c || c = '+' || c = '/')) =
        false := by
    rw [validate_peer_key, bail_if_eq_ok] at h
    exact h
  rw [profile_client_public_key, hfind]
  simp only [hkey, Bool.false_eq_true, if_false, String.ofList_toList]

theorem length_readNumber {k upto m : ℕ} {cs rest : List Char}
    (h : Ipv4.Net.readNumber k upto cs = some (m, rest)) : cs.length ≤ k + rest.length := by
  rw [Ipv4.Net.readNumber] at h
  split_ifs at h with hbad
  obtain ⟨-, rfl⟩ := Prod.mk.inj (Option.some.inj h)
  have hlen := congrArg List.length (List.takeWhile_append_dropWhile (p := Char.isDigit) (l := cs))
  rw [List.length_append] at hlen
  omega

theorem length_readChar {d : Char} {cs rest : List Char} (h : Ipv4.Net.readChar d cs = some rest) :
    cs.length = rest.length + 1 := by
  cases cs with
  | nil => cases h
  | cons e cs =>
    rw [Ipv4.Net.readChar] at h
    split_ifs at h
    rw [Option.some.inj h, List.length_cons]

theorem length_network {text : String} {network : Ipv4.Net}
    (h : Ipv4.Net.ofString? text = some network) : text.toList.length ≤ 18 := by
  simp only [Ipv4.Net.ofString?, Ipv4.Net.readAddr, Option.bind_eq_bind, Option.bind_eq_some_iff,
    Prod.exists, Option.some.injEq, Prod.mk.injEq] at h
  obtain ⟨_, cs₀, ⟨_, cs₁, h₁, cs₂, d₁, _, cs₃, h₂, cs₄, d₂, _, cs₅, h₃, cs₆, d₃, _, cs₇, h₄, -, rfl⟩,
    cs₈, d₄, _, cs₉, h₅, h⟩ := h
  split_ifs at h with hend
  have l₁ := length_readNumber h₁
  have l₂ := length_readNumber h₂
  have l₃ := length_readNumber h₃
  have l₄ := length_readNumber h₄
  have l₅ := length_readNumber h₅
  have m₁ := length_readChar d₁
  have m₂ := length_readChar d₂
  have m₃ := length_readChar d₃
  have m₄ := length_readChar d₄
  rw [hend.2, List.length_nil] at l₅
  omega

theorem ascii_of_digit {c : Char} (h : c.isDigit = true) : is_ascii_alphanumeric c = true := by
  simp [is_ascii_alphanumeric, Char.isAlphanum, h]

theorem network_chars {text : String} {network : Ipv4.Net}
    (h : Ipv4.Net.ofString? text = some network) :
    Printable text ∧ ∀ c ∈ text.toList, c.toNat < 128 := by
  have hall := fun c hc => Ipv4.Net.ofString?_char h (c := c) hc
  refine ⟨⟨fun hnil => ?_, fun c hc => ?_⟩, fun c hc => ?_⟩
  · have hempty : text = "" := String.toList_eq_nil_iff.mp hnil
    have hnone : Ipv4.Net.ofString? "" = none := by decide
    rw [hempty, hnone] at h
    cases h
  · rcases hall c hc with hd | rfl | rfl
    · exact not_whitespace_of_alphanumeric (ascii_of_digit hd)
    · decide
    · decide
  · rcases hall c hc with hd | rfl | rfl
    · exact ascii_of_alphanumeric (ascii_of_digit hd)
    · decide
    · decide

/-! ## The endpoint -/

theorem rsplit_once_eq_some {c : Char} {s : String} {host port : List Char}
    (h : rsplit_once c s = some (host, port)) : s.toList = host ++ c :: port ∧ c ∉ port := by
  have hmem : c ∈ s.toList := by
    by_contra hn
    rw [rsplit_once, if_neg hn] at h
    cases h
  obtain ⟨as, bs, hrev, hnot⟩ := List.eq_append_cons_of_mem (List.mem_reverse.mpr hmem)
  have hs : s.toList = bs.reverse ++ c :: as.reverse := by
    rw [← List.reverse_reverse s.toList, hrev]
    simp
  have hsplit := rsplit_once_append (c := c) (by simpa using hnot : c ∉ as.reverse) bs.reverse
  rw [← hs, String.ofList_toList, h, Option.some.injEq, Prod.mk.injEq] at hsplit
  obtain ⟨rfl, rfl⟩ := hsplit
  exact ⟨hs, by simpa using hnot⟩

/-- An endpoint with an IPv4 address. -/
def IsIpv4Endpoint (endpoint : String) : Prop :=
  ∃ host port address, rsplit_once ':' endpoint = some (host, port) ∧
    IpAddr.parse (String.ofList host) = some (.v4 address)

theorem parse_bracketed (inner : List Char) (address : Ipv4.Addr) :
    IpAddr.parse (String.ofList ('[' :: inner)) ≠ some (.v4 address) := by
  have hnone : IpAddr.read_ipv4_addr ('[' :: inner) = none := by
    have hdigit : (digit 10 '[').isSome = false := by decide
    simp [IpAddr.read_ipv4_addr, IpAddr.read_separator, IpAddr.read_number, hdigit]
  rw [IpAddr.parse, String.toList_ofList, hnone]
  intro h
  split at h
  · rename_i he
    cases he
  · rename_i he
    cases he
  · split at h
    · cases h
    · cases h

/-- An IPv4 endpoint of the server is an address in its dotted form, and the port. -/
theorem toList_managed_endpoint {endpoint : String} (h : validate_managed_endpoint endpoint = .ok ())
    (h4 : IsIpv4Endpoint endpoint) : ∃ address : Ipv4.Addr,
      endpoint.toList = Ipv4.Net.dotted address ++ ':' :: "8443".toList := by
  obtain ⟨host, port, address, hsplit, hparse⟩ := h4
  have hbare : Server.unbracketed host = host := by
    cases host with
    | nil => rfl
    | cons c cs =>
      by_cases hc : c = '['
      · rw [hc] at hparse
        exact absurd hparse (parse_bracketed _ _)
      · unfold Server.unbracketed
        split
        · rename_i he
          exact absurd (List.cons.inj he).1 hc
        · rfl
  simp only [validate_managed_endpoint, hsplit, hbare, hparse, bind_eq_ok, bail_if_eq_ok,
    Bool.or_eq_false_iff, bne_eq_false_iff_eq] at h
  obtain ⟨_, hport, ⟨htext, -⟩, -⟩ := h
  have hhost : host = Ipv4.Net.dotted address := String.ofList_injective htext
  rw [(rsplit_once_eq_some hsplit).1, hport, hhost]
  exact ⟨address, rfl⟩

theorem dotted_chars (address : Ipv4.Addr) :
    ∀ c ∈ Ipv4.Net.dotted address, c.isDigit = true ∨ c = '.' := by
  have hdigits : ∀ n, ∀ c ∈ Nat.toDigits 10 n, c.isDigit = true := fun n c hc =>
    Nat.isDigit_of_mem_toDigits (by decide) (by decide) hc
  intro c hc
  simp only [Ipv4.Net.dotted, List.mem_append, List.mem_cons] at hc
  rcases hc with hc | rfl | hc | rfl | hc | rfl | hc
  · exact .inl (hdigits _ c hc)
  · exact .inr rfl
  · exact .inl (hdigits _ c hc)
  · exact .inr rfl
  · exact .inl (hdigits _ c hc)
  · exact .inr rfl
  · exact .inl (hdigits _ c hc)

theorem length_dotted (address : Ipv4.Addr) :
    0 < (Ipv4.Net.dotted address).length ∧ (Ipv4.Net.dotted address).length ≤ 15 := by
  have hlt : address.toNat < 2 ^ 32 := address.isLt
  have hbyte : ∀ n < 256, (Nat.toDigits 10 n).length ≤ 3 := fun n hn =>
    (Ipv4.Net.toDigits_byte n hn).2.2.1
  have h₀ := hbyte (address.toNat / 2 ^ 24) (by omega)
  have h₁ := hbyte (address.toNat / 2 ^ 16 % 256) (by omega)
  have h₂ := hbyte (address.toNat / 2 ^ 8 % 256) (by omega)
  have h₃ := hbyte (address.toNat % 256) (by omega)
  simp only [Ipv4.Net.dotted, List.length_append, List.length_cons]
  omega

theorem endpoint_valid {endpoint : String} {address : Ipv4.Addr}
    (h : endpoint.toList = Ipv4.Net.dotted address ++ ':' :: "8443".toList) :
    Printable endpoint ∧ len endpoint ≤ 20 ∧ Param.Valid .endpoint endpoint := by
  have hdot := dotted_chars address
  obtain ⟨hpos, hlen⟩ := length_dotted address
  have hchars : ∀ c ∈ endpoint.toList, c.isDigit = true ∨ c = '.' ∨ c = ':' := by
    intro c hc
    have hport : "8443".toList.all Char.isDigit = true := by decide
    rw [h, List.mem_append, List.mem_cons] at hc
    rcases hc with hc | rfl | hc
    · exact (hdot c hc).imp_right .inl
    · exact .inr (.inr rfl)
    · exact .inl (List.all_eq_true.mp hport c hc)
  have hprintable : Printable endpoint := by
    refine ⟨by rw [h]; simp, fun c hc => ?_⟩
    rcases hchars c hc with hd | rfl | rfl
    · exact not_whitespace_of_alphanumeric (ascii_of_digit hd)
    · decide
    · decide
  have hbytes : len endpoint ≤ 20 := by
    have hascii : ∀ c ∈ endpoint.toList, c.toNat < 128 := by
      intro c hc
      rcases hchars c hc with hd | rfl | rfl
      · exact ascii_of_alphanumeric (ascii_of_digit hd)
      · decide
      · decide
    have hfour : "8443".toList.length = 4 := by decide
    rw [len, byteLen_ascii hascii, h, List.length_append, List.length_cons, hfour]
    omega
  have hsplit : rsplit_once ':' endpoint = some (Ipv4.Net.dotted address, "8443".toList) := by
    rw [← String.ofList_toList (s := endpoint), h]
    exact rsplit_once_append (by decide) _
  refine ⟨hprintable, hbytes, ?_, ?_⟩
  · have hws : endpoint.toList.any is_whitespace = false := by
      rw [List.any_eq_false]
      exact fun c hc => by simp [hprintable.2 c hc]
    have hsome : ((parse_unsigned 10 65535 "8443".toList).filter (0 < ·)).isNone = false := by
      decide
    have hhost : Ipv4.Net.dotted address ≠ [] := List.ne_nil_of_length_pos hpos
    simp only [validate_endpoint, hsplit, bind_eq_ok, bail_if_eq_ok, hws, hsome, hprintable.1, hhost]
    exact ⟨(), by simp; omega, by simp⟩
  · rw [hsplit, Option.any_some, List.any_eq_false]
    intro c hc
    rcases hdot c hc with hd | rfl
    · have hne : [':', '[', ']'].all (!Char.isDigit ·) = true := by decide
      intro hm
      have hc : (!c.isDigit) = true := List.all_eq_true.mp hne c (of_decide_eq_true hm)
      rw [hd] at hc
      cases hc
    · decide

/-! ## The round trip -/

theorem len_pieces (a b c d e f g h i j k l m : String) :
    len (a ++ b ++ c ++ d ++ e ++ f ++ g ++ h ++ i ++ j ++ k ++ l ++ m) =
      len d + len b + len j + len l + len f +
        (len a + len c + len e + len g + len h + len i + len k + len m) := by
  simp only [len_append]
  omega

theorem len_format_profile
    (private_key client_public_key server_public_key endpoint tunnel_ip : String) :
    len (format_profile private_key client_public_key server_public_key endpoint tunnel_ip) <
      len private_key + len client_public_key + len server_public_key + len endpoint +
        len tunnel_ip + 256 := by
  have h := len_pieces "# ClientPublicKey = " client_public_key "\n[Interface]\nPrivateKey = "
    private_key "\nAddress = " tunnel_ip "\nMTU = " Relay.TUNNEL_MTU.repr
    "\n\n[Peer]\nPublicKey = " server_public_key "\nAllowedIPs = 0.0.0.0/0\nEndpoint = " endpoint
    "\nPersistentKeepalive = 10\n"
  have hfixed : len "# ClientPublicKey = " + len "\n[Interface]\nPrivateKey = " +
      len "\nAddress = " + len "\nMTU = " + len Relay.TUNNEL_MTU.repr +
      len "\n\n[Peer]\nPublicKey = " + len "\nAllowedIPs = 0.0.0.0/0\nEndpoint = " +
      len "\nPersistentKeepalive = 10\n" < 256 := by decide
  unfold format_profile
  exact h.trans_lt (Nat.add_lt_add_left hfixed _)

/-- **A profile of the server is read back by the agent.** -/
theorem profile_round_trip [Management]
    {private_key client_public_key server_public_key endpoint tunnel_ip name : String}
    {network : Ipv4.Net} (hprivate : validate_peer_key private_key = .ok ())
    (hclient : validate_peer_key client_public_key = .ok ())
    (hserver : validate_peer_key server_public_key = .ok ())
    (hendpoint : validate_managed_endpoint endpoint = .ok ()) (hipv4 : IsIpv4Endpoint endpoint)
    (htunnel : validate_tunnel_ip tunnel_ip = .ok network)
    (hname : normalize_server_name name = .ok name) :
    let profile :=
      format_profile private_key client_public_key server_public_key endpoint tunnel_ip
    parse_server_profile name profile = .ok ⟨name, "", endpoint, server_public_key,
        some network.toString, some private_key, none⟩ ∧
      profile_client_public_key profile = .ok client_public_key ∧ len profile ≤ MAX_PROFILE_SIZE := by
  intro profile
  have hkey := fun {key : String} (h : validate_peer_key key = .ok ()) kind =>
    validate_wireguard_key_of_peer h kind
  obtain ⟨hnet, -⟩ := Server.validate_tunnel_ip_eq_ok.mp htunnel
  obtain ⟨htext, hascii⟩ := network_chars hnet
  obtain ⟨address, haddress⟩ := toList_managed_endpoint hendpoint hipv4
  obtain ⟨hprintable, hshort, hvalid⟩ := endpoint_valid haddress
  have hvalues := printable_written (printable_key (hkey hprivate "private"))
    (printable_key (hkey hserver "public")) hprintable htext
  have hlines : lines profile = profile_lines client_public_key
      (written private_key server_public_key endpoint tunnel_ip) :=
    lines_of_profile_lines (printable_key (hkey hclient "public")) hvalues toList_format_profile
  have hlen : len profile ≤ MAX_PROFILE_SIZE := by
    have hbytes := len_format_profile private_key client_public_key server_public_key endpoint
      tunnel_ip
    have htunnel_len : len tunnel_ip ≤ 18 := by
      rw [len, byteLen_ascii hascii]
      exact length_network hnet
    have h₁ := (key_chars (hkey hprivate "private")).1
    have h₂ := (key_chars (hkey hclient "public")).1
    have h₃ := (key_chars (hkey hserver "public")).1
    have hmax : MAX_PROFILE_SIZE = 4096 := rfl
    change len (format_profile _ _ _ _ _) ≤ _
    omega
  have hnormal : normalize_tunnel_address tunnel_ip = .ok network.toString := by
    simp only [validate_tunnel_ip, hnet, bind_eq_ok, bail_if_eq_ok] at htunnel
    obtain ⟨_, hrange, -⟩ := htunnel
    simp only [normalize_tunnel_address, hnet, hrange]
    rfl
  refine ⟨(parse_server_profile_iff hlen).mpr
    ⟨written private_key server_public_key endpoint tunnel_ip, ?_, ?_, name, network.toString, hname,
      hnormal, rfl⟩, profile_client_public_key_of_lines hclient hlines, hlen⟩
  · rw [hlines, body_profile_lines (printable_key (hkey hclient "public")) hvalues]
  · intro p
    cases p with
    | private_key => exact hkey hprivate "private"
    | address => exact ⟨_, hnormal⟩
    | mtu =>
      have hmtu : parse_unsigned 10 65535 Relay.TUNNEL_MTU.repr.toList = some MTU := by
        decide
      exact ⟨MTU, by decide, hmtu⟩
    | public_key => exact hkey hserver "public"
    | allowed_ips => exact (by decide : trim_parts "0.0.0.0/0" = ALLOWED_IPS)
    | endpoint => exact hvalid
    | keepalive => exact (by decide : parse_unsigned 10 65535 "10".toList = some KEEPALIVE)

def sampleKeys : String × String × String :=
  ("4E64fyqMJsXY6YaAp8M3qM7r6Xj6YjAfuPeWbdMvIHE=", "aq2K6tZ6JqYCpNPLseGJPHceMMxxEdkx5AeRm6cEfSE=",
    "Aaaaaaaaaaaaaaaaaaaaaaaaaaaaaaaaaaaaaaaaaaa=")

/-- `profile_round_trip` for a router at a documentation address. -/
theorem profile_round_trip_sample :
    letI : Management := ⟨fun _ => .ok ()⟩
    let profile := format_profile sampleKeys.1 sampleKeys.2.1 sampleKeys.2.2 "198.51.100.1:8443"
      "10.202.0.5/32"
    parse_server_profile "VPS" profile = .ok ⟨"VPS", "", "198.51.100.1:8443", sampleKeys.2.2,
        some "10.202.0.5/32", some sampleKeys.1, none⟩ ∧
      profile_client_public_key profile = .ok sampleKeys.2.1 ∧ len profile ≤ MAX_PROFILE_SIZE := by
  let : Management := ⟨fun _ => .ok ()⟩
  have htunnel : validate_tunnel_ip "10.202.0.5/32" = .ok (Server.tunnel 5) := by decide
  exact profile_round_trip (by decide) (by decide) (by decide)
    (by decide)
    ⟨"198.51.100.1".toList, "8443".toList, Ipv4.addr 198 51 100 1, by decide,
      by decide⟩ htunnel (by decide)

end Gofro.Agent

import GofroRouter.Lib.Pattern
import GofroRouter.Server.Revoked

/-!
# The forced command of the SSH key

`gofro-managed`, the only program that the agent's SSH key may run: it compares what the client
asked for with a fixed list of commands, and runs one program with arguments taken from the request,
or exits with status 126. The classes of its expressions are those of the C locale.

* `gofro_managed`: the script. `Invocation.command`: what the server reads from its arguments.
* **`gofro_managed_branch`**: which texts run what. `managed_cases`: the same for the server.
* `Session.serve`: what a connection prints and makes of the server.
* **`sessions_confined`**: what any sequence of texts makes of the server.
-/

namespace Gofro.Server

open Pattern Text Fallible
open Platform (pubkey)
open Gofro.Agent (bail_if_eq_ok)
open IpAddr (isGroupChar isGroupChar_digitChar)

/-! ## The script -/

def DIGIT : Regex := oneOf (range '0' '9')

/-- `\[[0-9a-f:]+\]` -/
def BRACKETED : Regex :=
  text ['['] * (plus (oneOf (range '0' '9' ++ range 'a' 'f' ++ [':'])) * text [']'])

/-- `[0-9]{1,3}` -/
def UP_TO_THREE : Regex := DIGIT * upTo DIGIT 2

/-- `[0-9]{1,3}(\.[0-9]{1,3}){3}` -/
def DOTTED : Regex := UP_TO_THREE * (text ['.'] * UP_TO_THREE) ^ 3

def PORT : List Char := [':', '8', '4', '4', '3']

/-- An address of either form and the port. -/
def ENDPOINT : Regex := (BRACKETED + DOTTED) * text PORT

/-- `[A-Za-z0-9+/]{43}=` -/
def KEY : Regex :=
  oneOf (range 'A' 'Z' ++ range 'a' 'z' ++ range '0' '9' ++ ['+', '/']) ^ 43 * text ['=']

/-- `^(0|[1-9][0-9]{0,2})$`, and at most 255. -/
def valid_octet (octet : List Char) : Bool :=
  (text ['0'] + oneOf (range '1' '9') * upTo DIGIT 2).rmatch octet &&
    (parse_unsigned 10 255 octet).isSome

/-- `${1%:8443}` -/
def without_port (endpoint : List Char) : List Char :=
  if PORT.isSuffixOf endpoint then endpoint.take (endpoint.length - PORT.length) else endpoint

/-- The pattern, and then the octets one by one. -/
def valid_endpoint (endpoint : List Char) : Bool :=
  let host := without_port endpoint
  ENDPOINT.rmatch endpoint &&
    ((host.head? = some '[' && host.getLast? = some ']') || (host.splitOn '.').all valid_octet)

/-- A program that the script becomes, perhaps under `timeout`. -/
structure Invocation where
  timeout : Option ℕ
  program : String
  args : List String
deriving DecidableEq

/-- What a branch takes besides its name. -/
inductive Argument
  | key
  | endpoint
deriving DecidableEq

/-- The pattern of an argument. -/
def Argument.regex : Argument → Regex
  | .key => KEY
  | .endpoint => ENDPOINT

/-- What is checked of a captured argument. -/
def Argument.valid : Argument → List Char → Bool
  | .key, _ => true
  | .endpoint, group => valid_endpoint group

/-- A branch: the name of a command, its arguments, and what is run. -/
structure Branch where
  name : String
  takes : List Argument
  invocation : List String → Invocation

/-- The name, and each argument after a blank. -/
def Branch.pattern (branch : Branch) : List Part :=
  .lit branch.name.toList ::
    branch.takes.flatMap fun argument => [.lit [' '], .group argument.regex]

/-- A command of the server's program. -/
def server (timeout : Option ℕ) (args : List String) : Invocation :=
  ⟨timeout, "/usr/local/bin/gofro-router-server", args⟩

/-- The branches of the script, in their order. -/
def BRANCHES : List Branch := [
  ⟨"version", [], fun _ => server none ["--version"]⟩,
  ⟨"capabilities", [], fun _ => server none ["capabilities"]⟩,
  ⟨"update", [], fun _ => ⟨some 900, "/usr/local/sbin/gofro-server-install", []⟩⟩,
  ⟨"managed-status", [], fun _ => server (some 30) ["managed-status"]⟩,
  ⟨"create-friend", [.endpoint], fun args => server (some 30) ("create-friend" :: args)⟩,
  ⟨"rename-friend", [.key], fun args => server (some 30) ("rename-friend" :: args)⟩,
  ⟨"revoke-friend", [.key], fun args => server (some 30) ("revoke-friend" :: args)⟩,
  ⟨"friend-profile", [.key, .endpoint], fun args => server (some 30) ("friend-profile" :: args)⟩,
  ⟨"restart-vpn", [], fun _ => server (some 60) ["restart-vpn"]⟩,
  ⟨"enable-warp", [], fun _ => server (some 900) ["enable-warp", "--accept-terms"]⟩,
  ⟨"disable-warp", [], fun _ => server (some 60) ["disable-warp"]⟩,
  ⟨"create-router-profile", [.endpoint], fun args =>
    server (some 30) ("create-router-profile" :: args)⟩,
  ⟨"create-profile", [.endpoint], fun args =>
    server (some 30) ("create-profile" :: "--endpoint" :: args)⟩,
  ⟨"remove-router-peer", [.key], fun args => server (some 30) ("remove-router-peer" :: args)⟩]

/-- A branch that matches runs its program, unless it refuses an argument. -/
def Branch.answer (branch : Branch) (command : List Char) : Option (Option Invocation) :=
  (find branch.pattern command).map fun groups =>
    if (branch.takes.zip groups).all fun (argument, group) => argument.valid group then
      some (branch.invocation (groups.map String.ofList))
    else none

/-- The first branch that matches, or status 126. -/
def gofro_managed (command : String) : Option Invocation :=
  (BRANCHES.findSome? fun branch => branch.answer command.toList).join

/-! ## What is run -/

/-- An argument of the server's command line: what starts with a hyphen would be an option. -/
def value (arg : String) : Option String := if arg.toList.head? = some '-' then none else some arg

/-- What the server reads from the arguments of the script, with its input and the key it makes. -/
def Invocation.command (invocation : Invocation) (input private_key : String) : Option Command :=
  if invocation.program = "/usr/local/bin/gofro-router-server" then
    match invocation.args with
    | ["capabilities"] => some .capabilities
    | ["managed-status"] => some .managed_status
    | ["create-friend", endpoint] => (value endpoint).map (.create_friend · input private_key)
    | ["rename-friend", public_key] => (value public_key).map (.rename_friend · input)
    | ["revoke-friend", public_key] => (value public_key).map .revoke_friend
    | ["friend-profile", public_key, endpoint] => do
      some (.friend_profile (← value public_key) (← value endpoint))
    | ["restart-vpn"] => some .restart_vpn
    | ["enable-warp"] => some (.enable_warp false)
    | ["enable-warp", "--accept-terms"] => some (.enable_warp true)
    | ["disable-warp"] => some .disable_warp
    | ["create-router-profile", endpoint] =>
      (value endpoint).map (.create_router_profile · private_key)
    | ["create-profile", "--endpoint", endpoint] =>
      (value endpoint).map (.create_profile · none none private_key)
    | ["remove-router-peer", public_key] => (value public_key).map .remove_router_peer
    | _ => none
  else none

/-! ## Requests -/

/-- What the script lets through as an endpoint: an IPv4 address, or anything in brackets that is
made of hexadecimal digits and colons. -/
def Endpoint (endpoint : String) : Prop :=
  ∃ host, endpoint.toList = host ++ PORT ∧
    ((∃ ip, host = Ipv4.Net.dotted ip) ∨
      ∃ inner, inner ≠ [] ∧ (∀ c ∈ inner, isGroupChar c = true) ∧ host = '[' :: (inner ++ [']']))

/-- What the program makes of an argument. -/
def Argument.Accepts : Argument → String → Prop
  | .key, public_key => validate_peer_key public_key = .ok ()
  | .endpoint, arg => Endpoint arg

/-- The text of a request for a branch. -/
def Branch.text (branch : Branch) (args : List String) : List Char :=
  branch.name.toList ++ args.flatMap fun arg => ' ' :: arg.toList

theorem mem_range_digit {c : Char} : c ∈ range '0' '9' ↔ c.isDigit = true := by
  rw [mem_range (by decide), Char.isDigit, Bool.and_eq_true, decide_eq_true_eq, decide_eq_true_eq]
  rfl

theorem mem_group_chars {c : Char} :
    c ∈ range '0' '9' ++ range 'a' 'f' ++ [':'] ↔ isGroupChar c = true := by
  rw [List.mem_append, List.mem_append, mem_range_digit, mem_range (by decide), List.mem_singleton,
    isGroupChar, Bool.or_eq_true, Bool.or_eq_true, Bool.and_eq_true, decide_eq_true_eq,
    decide_eq_true_eq, decide_eq_true_eq]

theorem mem_key_chars {c : Char} :
    c ∈ range 'A' 'Z' ++ range 'a' 'z' ++ range '0' '9' ++ ['+', '/'] ↔
      (is_ascii_alphanumeric c || c = '+' || c = '/') = true := by
  have hle : ∀ a b : Char, a ≤ b ↔ a.toNat ≤ b.toNat := fun a b => UInt32.le_iff_toNat_le
  simp only [List.mem_append, List.mem_cons, List.not_mem_nil, or_false,
    mem_range (show ('Z' : Char).toNat < 0xd800 by decide),
    mem_range (show ('z' : Char).toNat < 0xd800 by decide),
    mem_range (show ('9' : Char).toNat < 0xd800 by decide), hle, Bool.or_eq_true,
    is_ascii_alphanumeric_iff, decide_eq_true_eq, or_assoc]
  rfl

theorem ascii_of_key_char {c : Char}
    (h : (is_ascii_alphanumeric c || c = '+' || c = '/') = true) : c.toNat < 128 := by
  simp only [Bool.or_eq_true, decide_eq_true_eq] at h
  rcases h with (h | rfl) | rfl
  · exact ascii_of_alphanumeric h
  · decide
  · decide

theorem byteLen_key {body : List Char}
    (h : ∀ c ∈ body, (is_ascii_alphanumeric c || c = '+' || c = '/') = true) :
    byteLen (body ++ ['=']) = body.length + 1 := by
  rw [byteLen_ascii, List.length_append, List.length_singleton]
  intro c hc
  rcases List.mem_append.mp hc with hc | hc
  · exact ascii_of_key_char (h c hc)
  · rw [List.mem_singleton.mp hc]
    decide

/-- **The keys of the script** are those of the server. -/
theorem mem_key {cs : List Char} :
    cs ∈ KEY.matches' ↔ validate_peer_key (String.ofList cs) = .ok () := by
  rw [KEY, mem_mul]
  simp only [mem_oneOf_pow, mem_text, mem_key_chars, validate_peer_key, bail_if_eq_ok, len,
    String.toList_ofList, Bool.or_eq_false_iff, bne_eq_false_iff_eq, Bool.not_eq_false',
    List.all_eq_true]
  constructor
  · rintro ⟨body, ⟨hbody, hall⟩, _, rfl, rfl⟩
    refine ⟨⟨by rw [byteLen_key hall, hbody], List.getLast?_concat⟩, ?_⟩
    rwa [List.dropLast_concat]
  · rintro ⟨⟨hbytes, hlast⟩, hall⟩
    have hcs : cs.dropLast ++ ['='] = cs := List.dropLast_append_getLast? _ hlast
    refine ⟨cs.dropLast, ⟨?_, hall⟩, ['='], rfl, hcs⟩
    have h := byteLen_key hall
    rw [hcs, hbytes] at h
    omega

/-! ## Endpoints -/

theorem valid_octet_toDigits : ∀ n < 256, valid_octet (Nat.toDigits 10 n) = true := by
  decide +kernel

theorem exists_digitChar {c : Char} (h : c ∈ range '0' '9') : ∃ d < 10, c = Nat.digitChar d := by
  have hdigit : ∀ d < 10, Char.ofNat (48 + d) = Nat.digitChar d := by decide
  obtain ⟨hlow, hhigh⟩ := (mem_range (by decide)).mp h
  have hlow' : 48 ≤ c.toNat := UInt32.le_iff_toNat_le.mp hlow
  have hhigh' : c.toNat ≤ 57 := UInt32.le_iff_toNat_le.mp hhigh
  have hd := hdigit (c.toNat - 48) (by omega)
  rw [Nat.add_sub_of_le hlow', Char.ofNat_toNat] at hd
  exact ⟨_, by omega, hd⟩

theorem digits_eq_toDigits {ds : List Char} (hdigits : ∀ c ∈ ds, c ∈ range '0' '9')
    (hne : ds ≠ []) (hhead : ds.head? ≠ some '0') {n : ℕ}
    (hn : ds.foldl (readDigit 10 255) (some 0) = some n) :
    ds = Nat.toDigits 10 n ∧ 0 < n ∧ n ≤ 255 := by
  induction ds using List.reverseRecOn generalizing n with
  | nil => exact absurd rfl hne
  | append_singleton ds c ih =>
    obtain ⟨d, hd, rfl⟩ := exists_digitChar (hdigits c (by simp))
    rw [List.foldl_append, List.foldl_cons, List.foldl_nil, readDigit] at hn
    obtain ⟨m, hm, hn⟩ := Option.bind_eq_some_iff.mp hn
    rw [digit_digitChar d hd] at hn
    obtain ⟨hle, hvalue⟩ := (Option.ite_none_right_eq_some (b := some (m * 10 + d))).mp hn
    obtain rfl : m * 10 + d = n := Option.some.inj hvalue
    cases ds with
    | nil =>
      obtain rfl : 0 = m := Option.some.inj hm
      have hpos : d ≠ 0 := by
        rintro rfl
        exact hhead rfl
      rw [Nat.zero_mul, Nat.zero_add] at hle ⊢
      exact ⟨(Nat.toDigits_of_lt_base hd).symm, Nat.pos_of_ne_zero hpos, hle⟩
    | cons b bs =>
      have hall : ∀ c ∈ b :: bs, c ∈ range '0' '9' := fun c hc =>
        hdigits c (List.mem_append_left _ hc)
      obtain ⟨hds, hpos, -⟩ := ih hall (List.cons_ne_nil _ _) hhead hm
      refine ⟨?_, by omega, hle⟩
      rw [hds, ← Nat.toDigits_of_lt_base hd, Nat.toDigits_append_toDigits (by decide) hpos hd,
        Nat.mul_comm]

/-- **The octets of the script** are the numbers below 256, as they are printed. -/
theorem valid_octet_iff {octet : List Char} :
    valid_octet octet = true ↔ ∃ n < 256, octet = Nat.toDigits 10 n := by
  constructor
  · intro h
    rw [valid_octet, Bool.and_eq_true, RegularExpression.rmatch_iff_matches', mem_add, mem_text,
      mem_oneOf_mul, Option.isSome_iff_exists] at h
    obtain ⟨hre, n, hn⟩ := h
    rcases hre with rfl | ⟨a, ha, rest, hrest, rfl⟩
    · exact ⟨0, by decide, by decide⟩
    · obtain ⟨-, hdigits⟩ := mem_upTo_oneOf.mp hrest
      have hdigit : a ∈ range '0' '9' := by
        obtain ⟨hlow, hhigh⟩ := (mem_range (by decide)).mp ha
        have hdigits : '0' ≤ '1' := by decide
        exact (mem_range (by decide)).mpr ⟨Char.le_trans hdigits hlow, hhigh⟩
      have hzero : a ≠ '0' := by
        rintro rfl
        exact absurd ha (by decide)
      have hplus : a ≠ '+' := by
        rintro rfl
        exact absurd ha (by decide)
      have hall : ∀ c ∈ a :: rest, c ∈ range '0' '9' := List.forall_mem_cons.mpr ⟨hdigit, hdigits⟩
      have hhead : (a :: rest).head? ≠ some '0' := fun he => hzero (Option.some.inj he)
      have hfold : (a :: rest).foldl (readDigit 10 255) (some 0) = some n := by
        rw [← hn, parse_unsigned, if_neg (List.cons_ne_nil _ _)]
        · rfl
        · exact fun ds he => hplus (List.cons_eq_cons.mp he).1
      obtain ⟨hds, -, hle⟩ := digits_eq_toDigits hall (List.cons_ne_nil _ _) hhead hfold
      exact ⟨n, Nat.lt_succ_of_le hle, hds⟩
  · rintro ⟨n, hn, rfl⟩
    exact valid_octet_toDigits n hn

theorem splitOn_four {a b c d : List Char} (ha : '.' ∉ a) (hb : '.' ∉ b) (hc : '.' ∉ c)
    (hd : '.' ∉ d) : (a ++ '.' :: (b ++ '.' :: (c ++ '.' :: d))).splitOn '.' = [a, b, c, d] := by
  rw [List.splitOn_append_cons_self_of_not_mem ha, List.splitOn_append_cons_self_of_not_mem hb,
    List.splitOn_append_cons_self_of_not_mem hc, List.splitOn_eq_singleton hd]

theorem mem_up_to_three {cs : List Char} :
    cs ∈ UP_TO_THREE.matches' ↔ cs ≠ [] ∧ cs.length ≤ 3 ∧ ∀ c ∈ cs, c.isDigit = true := by
  rw [UP_TO_THREE, DIGIT, mem_oneOf_mul]
  simp only [mem_upTo_oneOf, mem_range_digit]
  constructor
  · rintro ⟨c, hc, ys, ⟨hlen, hys⟩, rfl⟩
    exact ⟨List.cons_ne_nil _ _, Nat.succ_le_succ hlen, List.forall_mem_cons.mpr ⟨hc, hys⟩⟩
  · rintro ⟨hne, hlen, hcs⟩
    cases cs with
    | nil => exact absurd rfl hne
    | cons c cs =>
      obtain ⟨hc, hcs⟩ := List.forall_mem_cons.mp hcs
      exact ⟨c, hc, cs, ⟨Nat.le_of_succ_le_succ hlen, hcs⟩, rfl⟩

theorem mem_dot_digits {cs : List Char} : cs ∈ (text ['.'] * UP_TO_THREE).matches' ↔
    ∃ ds ∈ UP_TO_THREE.matches', '.' :: ds = cs := by
  rw [mem_mul]
  simp only [mem_text, exists_eq_left, List.singleton_append]

theorem mem_dotted {cs : List Char} : cs ∈ DOTTED.matches' ↔
    ∃ a b c d, (a ∈ UP_TO_THREE.matches' ∧ b ∈ UP_TO_THREE.matches' ∧ c ∈ UP_TO_THREE.matches' ∧
      d ∈ UP_TO_THREE.matches') ∧ cs = a ++ '.' :: (b ++ '.' :: (c ++ '.' :: d)) := by
  rw [DOTTED, mem_mul]
  constructor
  · rintro ⟨a, ha, ys, hys, rfl⟩
    obtain ⟨xss, rfl, hlen, hxss⟩ := mem_pow.mp hys
    obtain ⟨x, y, z, rfl⟩ := List.length_eq_three.mp hlen
    obtain ⟨b, hb, rfl⟩ := mem_dot_digits.mp (hxss x (by simp))
    obtain ⟨c, hc, rfl⟩ := mem_dot_digits.mp (hxss y (by simp))
    obtain ⟨d, hd, rfl⟩ := mem_dot_digits.mp (hxss z (by simp))
    exact ⟨a, b, c, d, ⟨ha, hb, hc, hd⟩, by simp⟩
  · rintro ⟨a, b, c, d, ⟨ha, hb, hc, hd⟩, rfl⟩
    refine ⟨a, ha, _, mem_pow.mpr ⟨['.' :: b, '.' :: c, '.' :: d], rfl, rfl, ?_⟩, by simp⟩
    intro xs hxs
    simp only [List.mem_cons, List.not_mem_nil, or_false] at hxs
    rcases hxs with rfl | rfl | rfl
    · exact mem_dot_digits.mpr ⟨b, hb, rfl⟩
    · exact mem_dot_digits.mpr ⟨c, hc, rfl⟩
    · exact mem_dot_digits.mpr ⟨d, hd, rfl⟩

theorem not_dot_of_digits {cs : List Char} (h : cs ∈ UP_TO_THREE.matches') : '.' ∉ cs :=
  fun hdot => absurd ((mem_up_to_three.mp h).2.2 '.' hdot) (by decide)

theorem toDigits_up_to_three (n : ℕ) (hn : n < 256) :
    Nat.toDigits 10 n ∈ UP_TO_THREE.matches' := by
  obtain ⟨hdigits, hne, hlen, -⟩ := Ipv4.Net.toDigits_byte n hn
  exact mem_up_to_three.mpr
    ⟨mt List.length_eq_zero_iff.mpr hne, hlen, List.all_eq_true.mp hdigits⟩

theorem dotted_addr {k l m n : ℕ} (hk : k < 256) (hl : l < 256) (hm : m < 256) (hn : n < 256) :
    Ipv4.Net.dotted (Ipv4.addr k l m n) = Nat.toDigits 10 k ++ '.' :: (Nat.toDigits 10 l ++
      '.' :: (Nat.toDigits 10 m ++ '.' :: Nat.toDigits 10 n)) := by
  have hfirst : (k * 2 ^ 24 + l * 2 ^ 16 + m * 2 ^ 8 + n) / 2 ^ 24 = k := by omega
  have hsecond : (k * 2 ^ 24 + l * 2 ^ 16 + m * 2 ^ 8 + n) / 2 ^ 16 % 256 = l := by omega
  have hthird : (k * 2 ^ 24 + l * 2 ^ 16 + m * 2 ^ 8 + n) / 2 ^ 8 % 256 = m := by omega
  have hfourth : (k * 2 ^ 24 + l * 2 ^ 16 + m * 2 ^ 8 + n) % 256 = n := by omega
  simp only [Ipv4.Net.dotted, addr_toNat hk hl hm hn, hfirst, hsecond, hthird, hfourth]

/-- **The dotted hosts of the script** are the IPv4 addresses, as they are printed. -/
theorem mem_dotted_valid {host : List Char} :
    host ∈ DOTTED.matches' ∧ (host.splitOn '.').all valid_octet = true ↔
      ∃ ip, host = Ipv4.Net.dotted ip := by
  constructor
  · rintro ⟨hre, hall⟩
    obtain ⟨a, b, c, d, ⟨ha, hb, hc, hd⟩, rfl⟩ := mem_dotted.mp hre
    rw [splitOn_four (not_dot_of_digits ha) (not_dot_of_digits hb) (not_dot_of_digits hc)
      (not_dot_of_digits hd), List.all_eq_true] at hall
    obtain ⟨k, hk, rfl⟩ := valid_octet_iff.mp (hall a (by simp))
    obtain ⟨l, hl, rfl⟩ := valid_octet_iff.mp (hall b (by simp))
    obtain ⟨m, hm, rfl⟩ := valid_octet_iff.mp (hall c (by simp))
    obtain ⟨n, hn, rfl⟩ := valid_octet_iff.mp (hall d (by simp))
    exact ⟨Ipv4.addr k l m n, (dotted_addr hk hl hm hn).symm⟩
  · rintro ⟨ip, rfl⟩
    have hlt := ip.isLt
    rw [Ipv4.Net.dotted]
    have hbyte := toDigits_up_to_three
    have hdot : ∀ n < 256, '.' ∉ Nat.toDigits 10 n := fun n hn => not_dot_of_digits (hbyte n hn)
    refine ⟨mem_dotted.mpr ⟨_, _, _, _, ⟨hbyte _ (by omega), hbyte _ (by omega), hbyte _ (by omega),
      hbyte _ (by omega)⟩, rfl⟩, ?_⟩
    rw [splitOn_four (hdot _ (by omega)) (hdot _ (by omega)) (hdot _ (by omega))
      (hdot _ (by omega))]
    simp only [List.all_cons, List.all_nil, Bool.and_true, Bool.and_eq_true]
    exact ⟨valid_octet_toDigits _ (by omega), valid_octet_toDigits _ (by omega),
      valid_octet_toDigits _ (by omega), valid_octet_toDigits _ (by omega)⟩

theorem mem_bracketed {cs : List Char} : cs ∈ BRACKETED.matches' ↔
    ∃ inner, inner ≠ [] ∧ (∀ c ∈ inner, isGroupChar c = true) ∧ cs = '[' :: (inner ++ [']']) := by
  rw [BRACKETED, mem_mul]
  constructor
  · rintro ⟨_, hopen, ys, hys, rfl⟩
    obtain ⟨inner, hinner, _, hclose, rfl⟩ := mem_mul.mp hys
    obtain ⟨hne, hall⟩ := mem_plus_oneOf.mp hinner
    rw [mem_text.mp hopen, mem_text.mp hclose]
    exact ⟨inner, hne, fun c hc => mem_group_chars.mp (hall c hc), rfl⟩
  · rintro ⟨inner, hne, hall, rfl⟩
    have hplus := mem_plus_oneOf.mpr ⟨hne, fun c hc => mem_group_chars.mpr (hall c hc)⟩
    exact ⟨_, mem_text.mpr rfl, _, mem_mul.mpr ⟨inner, hplus, _, mem_text.mpr rfl, rfl⟩, rfl⟩

theorem without_port_append (host : List Char) : without_port (host ++ PORT) = host := by
  rw [without_port, if_pos (List.isSuffixOf_iff_suffix.mpr (List.suffix_append _ _)),
    List.length_append, Nat.add_sub_cancel, List.take_left]

theorem head_of_dotted {host : List Char} (h : host ∈ DOTTED.matches') :
    host.head? ≠ some '[' := by
  obtain ⟨a, b, c, d, ⟨ha, -⟩, rfl⟩ := mem_dotted.mp h
  obtain ⟨hne, -, hdigits⟩ := mem_up_to_three.mp ha
  cases a with
  | nil => exact absurd rfl hne
  | cons digit a =>
    intro he
    have hdigit := hdigits digit List.mem_cons_self
    rw [show digit = '[' from Option.some.inj he] at hdigit
    exact absurd hdigit (by decide)

/-- **What the script takes as an endpoint.** -/
theorem valid_endpoint_iff {cs : List Char} :
    valid_endpoint cs = true ↔ Endpoint (String.ofList cs) := by
  rw [valid_endpoint, Endpoint, String.toList_ofList]
  simp only [Bool.and_eq_true, Bool.or_eq_true, decide_eq_true_eq,
    RegularExpression.rmatch_iff_matches', ENDPOINT, mem_mul, mem_add, mem_text]
  constructor
  · rintro ⟨⟨host, hre, _, rfl, rfl⟩, hvalid⟩
    rw [without_port_append] at hvalid
    refine ⟨host, rfl, ?_⟩
    rcases hre with hre | hre
    · exact .inr (mem_bracketed.mp hre)
    · rcases hvalid with ⟨hhead, -⟩ | hall
      · exact absurd hhead (head_of_dotted hre)
      · exact .inl (mem_dotted_valid.mp ⟨hre, hall⟩)
  · rintro ⟨host, rfl, hdotted | ⟨inner, hne, hall, rfl⟩⟩
    · obtain ⟨hre, hall⟩ := mem_dotted_valid.mpr hdotted
      rw [without_port_append]
      exact ⟨⟨host, .inr hre, _, rfl, rfl⟩, .inr hall⟩
    · rw [without_port_append]
      refine ⟨⟨_, .inl (mem_bracketed.mpr ⟨inner, hne, hall, rfl⟩), _, rfl, rfl⟩, .inl ⟨rfl, ?_⟩⟩
      rw [← List.cons_append]
      exact List.getLast?_concat

/-! ## Branches -/

theorem mem_regex {argument : Argument} {cs : List Char} :
    cs ∈ argument.regex.matches' ∧ argument.valid cs = true ↔
      argument.Accepts (String.ofList cs) := by
  cases argument with
  | key => simpa [Argument.regex, Argument.valid, Argument.Accepts] using mem_key
  | endpoint =>
    rw [Argument.valid, Argument.Accepts, ← valid_endpoint_iff, and_iff_right_iff_imp]
    intro h
    rw [valid_endpoint, Bool.and_eq_true] at h
    exact (RegularExpression.rmatch_iff_matches' _ _).mp h.1

theorem branches_takes : ∀ branch ∈ BRANCHES, ∀ argument ∈ branch.takes.dropLast,
    argument = .key := by
  simp [BRANCHES]

theorem branches_names : (BRANCHES.map Branch.name).Nodup := by
  decide

theorem branches_blanks : ∀ branch ∈ BRANCHES, ' ' ∉ branch.name.toList := by
  simp [BRANCHES]

theorem key_length {cs : List Char} (h : cs ∈ KEY.matches') : cs.length = 44 := by
  rw [KEY, mem_mul] at h
  obtain ⟨body, hbody, _, hend, rfl⟩ := h
  rw [mem_text.mp hend, List.length_append, (mem_oneOf_pow.mp hbody).1]
  rfl

theorem definite_takes {takes : List Argument} (h : ∀ argument ∈ takes.dropLast, argument = .key) :
    Definite (takes.flatMap fun argument => [.lit [' '], .group argument.regex]) := by
  induction takes with
  | nil => trivial
  | cons argument takes ih =>
    cases takes with
    | nil => exact ⟨.inl rfl, trivial⟩
    | cons next takes =>
      rw [List.dropLast_cons_cons] at h
      obtain ⟨rfl, hrest⟩ := List.forall_mem_cons.mp h
      exact ⟨.inr ⟨44, fun xs hxs => key_length hxs⟩, ih hrest⟩

theorem fits_takes {takes : List Argument} {groups : List (List Char)} {cs : List Char} :
    Fits (takes.flatMap fun argument => [.lit [' '], .group argument.regex]) groups cs ↔
      List.Forall₂ (fun argument group => group ∈ argument.regex.matches') takes groups ∧
        cs = groups.flatMap fun group => ' ' :: group := by
  induction takes generalizing groups cs with
  | nil =>
    rw [List.flatMap_nil, Fits, List.forall₂_nil_left_iff]
    exact and_congr_right fun h => by rw [h]; rfl
  | cons argument takes ih =>
    show (∃ rest, cs = [' '] ++ rest ∧ ∃ xs ∈ argument.regex.matches', ∃ groups' rest',
      groups = xs :: groups' ∧ rest = xs ++ rest' ∧ Fits _ groups' rest') ↔ _
    constructor
    · rintro ⟨_, rfl, xs, hxs, groups, rest, rfl, rfl, h⟩
      obtain ⟨hall, rfl⟩ := ih.mp h
      exact ⟨.cons hxs hall, by simp⟩
    · rintro ⟨hall, rfl⟩
      obtain ⟨group, groups, hgroup, hrest, rfl⟩ := List.forall₂_cons_left_iff.mp hall
      exact ⟨_, rfl, group, hgroup, groups, _, rfl, rfl, ih.mpr ⟨hrest, rfl⟩⟩

variable {branch : Branch} {args : List String} {groups : List (List Char)} {cs : List Char}

theorem definite_pattern (hb : branch ∈ BRANCHES) : Definite branch.pattern :=
  definite_takes (branches_takes branch hb)

theorem fits_pattern : Fits branch.pattern groups cs ↔
    List.Forall₂ (fun argument group => group ∈ argument.regex.matches') branch.takes groups ∧
      cs = branch.text (groups.map String.ofList) := by
  rw [Branch.pattern, Branch.text, List.flatMap_map]
  simp only [Fits, fits_takes, String.toList_ofList]
  constructor
  · rintro ⟨_, rfl, hall, rfl⟩
    exact ⟨hall, rfl⟩
  · rintro ⟨hall, rfl⟩
    exact ⟨_, rfl, hall, rfl⟩

theorem takeWhile_text (hb : branch ∈ BRANCHES) :
    (branch.text args).takeWhile (· != ' ') = branch.name.toList := by
  have hname : ∀ c ∈ branch.name.toList, (c != ' ') = true := by
    intro c hc
    rw [bne_iff_ne]
    rintro rfl
    exact branches_blanks branch hb hc
  rw [Branch.text, List.takeWhile_append_of_pos hname]
  cases args with
  | nil => exact List.append_nil _
  | cons arg args => simp

theorem branch_unique {branch' : Branch} {args' : List String} (hb : branch ∈ BRANCHES)
    (hb' : branch' ∈ BRANCHES) (h : branch.text args = branch'.text args') : branch = branch' := by
  have hname : branch.name.toList = branch'.name.toList := by
    rw [← takeWhile_text hb, h, takeWhile_text hb']
  exact List.inj_on_of_nodup_map branches_names hb hb' (String.toList_inj.mp hname)

theorem accepts_groups {takes : List Argument} :
    List.Forall₂ (fun argument group => group ∈ argument.regex.matches') takes groups ∧
        ((takes.zip groups).all fun (argument, group) => argument.valid group) = true ↔
      List.Forall₂ Argument.Accepts takes (groups.map String.ofList) := by
  induction takes generalizing groups with
  | nil => cases groups <;> simp
  | cons argument takes ih =>
    cases groups with
    | nil => simp
    | cons group groups =>
      rw [List.map_cons, List.forall₂_cons, List.forall₂_cons, ← ih, ← mem_regex,
        List.zip_cons_cons, List.all_cons, Bool.and_eq_true]
      tauto

theorem text_of_answer {answer : Option Invocation} (h : branch.answer cs = some answer) :
    ∃ args, cs = branch.text args ∧
      ∀ invocation, answer = some invocation →
        List.Forall₂ Argument.Accepts branch.takes args ∧ invocation = branch.invocation args := by
  obtain ⟨groups, hfind, rfl⟩ := Option.map_eq_some_iff.mp h
  obtain ⟨hall, htext⟩ := fits_pattern.mp (fits_of_find hfind)
  refine ⟨groups.map String.ofList, htext, fun invocation hrun => ?_⟩
  split_ifs at hrun with hvalid
  exact ⟨accepts_groups.mp ⟨hall, hvalid⟩, (Option.some.inj hrun).symm⟩

theorem answer_of_accepts (hb : branch ∈ BRANCHES)
    (h : List.Forall₂ Argument.Accepts branch.takes args) :
    branch.answer (branch.text args) = some (some (branch.invocation args)) := by
  have hargs : (args.map String.toList).map String.ofList = args := by
    simp [List.map_map, Function.comp_def]
  rw [← hargs] at h
  obtain ⟨hall, hvalid⟩ := accepts_groups.mpr h
  have hfind : find branch.pattern (branch.text args) = some (args.map String.toList) :=
    (find_eq_some_iff (definite_pattern hb)).mpr (fits_pattern.mpr ⟨hall, by rw [hargs]⟩)
  rw [Branch.answer, hfind, Option.map_some, if_pos hvalid, hargs]

theorem branch_of_managed {command : String} {invocation : Invocation}
    (h : gofro_managed command = some invocation) :
    ∃ branch ∈ BRANCHES, ∃ args, List.Forall₂ Argument.Accepts branch.takes args ∧
      command.toList = branch.text args ∧ invocation = branch.invocation args := by
  rw [gofro_managed, Option.join_eq_some_iff] at h
  obtain ⟨branch, hb, hanswer⟩ := List.exists_of_findSome?_eq_some h
  obtain ⟨args, htext, hrun⟩ := text_of_answer hanswer
  exact ⟨branch, hb, args, (hrun _ rfl).1, htext, (hrun _ rfl).2⟩

theorem managed_of_branch {command : String} (hb : branch ∈ BRANCHES)
    (haccepts : List.Forall₂ Argument.Accepts branch.takes args)
    (htext : command.toList = branch.text args) :
    gofro_managed command = some (branch.invocation args) := by
  have hanswer := answer_of_accepts hb haccepts
  rw [← htext] at hanswer
  have hsome : (BRANCHES.findSome? fun branch => branch.answer command.toList).isSome = true :=
    List.findSome?_isSome_iff.mpr ⟨branch, hb, by rw [hanswer]; rfl⟩
  obtain ⟨found, hfound⟩ := Option.isSome_iff_exists.mp hsome
  -- no other branch has this name
  obtain ⟨other, ho, hother⟩ := List.exists_of_findSome?_eq_some hfound
  obtain ⟨args', htext', -⟩ := text_of_answer hother
  obtain rfl := branch_unique hb ho (htext.symm.trans htext')
  rw [gofro_managed, Option.join_eq_some_iff, hfound, ← hother, hanswer]

/-- **Which texts run what**: those that name a branch and give it what it accepts. -/
theorem gofro_managed_branch {command : String} {invocation : Invocation} :
    gofro_managed command = some invocation ↔ ∃ branch ∈ BRANCHES, ∃ args,
      List.Forall₂ Argument.Accepts branch.takes args ∧ command.toList = branch.text args ∧
        invocation = branch.invocation args := by
  constructor
  · exact branch_of_managed
  · rintro ⟨branch, hb, args, haccepts, htext, rfl⟩
    exact managed_of_branch hb haccepts htext

theorem key_toList_length {public_key : String} (h : validate_peer_key public_key = .ok ()) :
    public_key.toList.length = 44 := by
  rw [← String.ofList_toList (s := public_key), ← mem_key] at h
  exact key_length h

theorem args_unique {takes : List Argument} (htakes : ∀ argument ∈ takes.dropLast, argument = .key)
    {args args' : List String}
    (h : List.Forall₂ (fun argument arg => argument = .key → argument.Accepts arg) takes args)
    (h' : List.Forall₂ Argument.Accepts takes args')
    (he : (args.flatMap fun arg => ' ' :: arg.toList) = args'.flatMap fun arg => ' ' :: arg.toList) :
    args = args' := by
  induction takes generalizing args args' with
  | nil => rw [List.forall₂_nil_left_iff.mp h, List.forall₂_nil_left_iff.mp h']
  | cons argument takes ih =>
    obtain ⟨arg, args, harg, hargs, rfl⟩ := List.forall₂_cons_left_iff.mp h
    obtain ⟨arg', args', harg', hargs', rfl⟩ := List.forall₂_cons_left_iff.mp h'
    rw [List.flatMap_cons, List.flatMap_cons, List.cons_append, List.cons_append,
      List.cons_eq_cons] at he
    cases takes with
    | nil =>
      obtain rfl := List.forall₂_nil_left_iff.mp hargs
      obtain rfl := List.forall₂_nil_left_iff.mp hargs'
      rw [List.flatMap_nil, List.append_nil, List.append_nil] at he
      rw [String.toList_inj.mp he.2]
    | cons next takes =>
      rw [List.dropLast_cons_cons] at htakes
      obtain ⟨rfl, hrest⟩ := List.forall_mem_cons.mp htakes
      have hlen : arg.toList.length = arg'.toList.length := by
        rw [key_toList_length (harg rfl), key_toList_length harg']
      obtain ⟨hhead, htail⟩ := List.append_inj he.2 hlen
      rw [String.toList_inj.mp hhead, ih hrest hargs hargs' htail]

/-- **A text with valid keys** runs its branch if and only if the branch accepts the rest of it. -/
theorem gofro_managed_text {command : String} {invocation : Invocation} (hb : branch ∈ BRANCHES)
    (htext : command.toList = branch.text args)
    (h : List.Forall₂ (fun argument arg => argument = .key → argument.Accepts arg)
      branch.takes args) :
    gofro_managed command = some invocation ↔
      List.Forall₂ Argument.Accepts branch.takes args ∧ invocation = branch.invocation args := by
  constructor
  · intro hrun
    obtain ⟨other, ho, args', haccepts, he, rfl⟩ := branch_of_managed hrun
    obtain rfl := branch_unique hb ho (htext.symm.trans he)
    have hargs := List.append_cancel_left (htext.symm.trans he)
    obtain rfl := args_unique (branches_takes branch hb) h haccepts hargs
    exact ⟨haccepts, rfl⟩
  · rintro ⟨haccepts, rfl⟩
    exact managed_of_branch hb haccepts htext

/-! ## Sessions -/

/-- A connection with the key: what is asked for, what is sent, and what happens at the server. -/
structure Session where
  command : String
  input : String
  private_key : String
  faults : Faults

/-- The commands that the script lets through. -/
inductive Permitted (input private_key : String) : Command → Prop
  | capabilities : Permitted input private_key .capabilities
  | managed_status : Permitted input private_key .managed_status
  | create_friend {endpoint : String} (h : Endpoint endpoint) :
    Permitted input private_key (.create_friend endpoint input private_key)
  | rename_friend {public_key : String} (h : validate_peer_key public_key = .ok ()) :
    Permitted input private_key (.rename_friend public_key input)
  | revoke_friend {public_key : String} (h : validate_peer_key public_key = .ok ()) :
    Permitted input private_key (.revoke_friend public_key)
  | friend_profile {public_key endpoint : String} (h : validate_peer_key public_key = .ok ())
    (h' : Endpoint endpoint) : Permitted input private_key (.friend_profile public_key endpoint)
  | restart_vpn : Permitted input private_key .restart_vpn
  | enable_warp : Permitted input private_key (.enable_warp true)
  | disable_warp : Permitted input private_key .disable_warp
  | create_router_profile {endpoint : String} (h : Endpoint endpoint) :
    Permitted input private_key (.create_router_profile endpoint private_key)
  | create_profile {endpoint : String} (h : Endpoint endpoint) :
    Permitted input private_key (.create_profile endpoint none none private_key)
  | remove_router_peer {public_key : String} (h : validate_peer_key public_key = .ok ()) :
    Permitted input private_key (.remove_router_peer public_key)

def INSTALLER : Invocation := ⟨some 900, "/usr/local/sbin/gofro-server-install", []⟩

theorem value_of_key {public_key : String} (h : validate_peer_key public_key = .ok ()) :
    value public_key = some public_key := by
  rw [← String.ofList_toList (s := public_key), ← mem_key, KEY, mem_mul] at h
  obtain ⟨body, hbody, _, -, hkey⟩ := h
  obtain ⟨hlen, hall⟩ := mem_oneOf_pow.mp hbody
  rw [value, if_neg]
  intro hhead
  cases body with
  | nil => cases hlen
  | cons c body =>
    rw [← hkey] at hhead
    have hc := mem_key_chars.mp (hall c List.mem_cons_self)
    rw [show c = '-' from Option.some.inj hhead] at hc
    exact absurd hc (by decide)

theorem value_of_endpoint {endpoint : String} (h : Endpoint endpoint) :
    value endpoint = some endpoint := by
  obtain ⟨host, htext, ⟨ip, rfl⟩ | ⟨inner, -, -, rfl⟩⟩ := h
  · have hdotted := (mem_dotted_valid.mpr ⟨ip, rfl⟩).1
    obtain ⟨a, b, c, d, ⟨ha, -⟩, he⟩ := mem_dotted.mp hdotted
    obtain ⟨hne, -, hdigits⟩ := mem_up_to_three.mp ha
    rw [value, if_neg]
    intro hhead
    cases a with
    | nil => exact absurd rfl hne
    | cons digit a =>
      rw [htext, he] at hhead
      have hdigit := hdigits digit List.mem_cons_self
      rw [show digit = '-' from Option.some.inj hhead] at hdigit
      exact absurd hdigit (by decide)
  · rw [value, if_neg]
    rw [htext]
    exact fun hhead => absurd (Option.some.inj hhead) (by decide)

theorem forall₂_one {argument : Argument} (h : List.Forall₂ Argument.Accepts [argument] args) :
    ∃ arg, argument.Accepts arg ∧ args = [arg] := by
  obtain ⟨arg, rest, harg, hrest, rfl⟩ := List.forall₂_cons_left_iff.mp h
  rw [List.forall₂_nil_left_iff.mp hrest]
  exact ⟨arg, harg, rfl⟩

/-- **What a text makes the server do**: its version, the installer, or one permitted command. -/
theorem managed_cases {command : String} {invocation : Invocation}
    (h : gofro_managed command = some invocation) (input private_key : String) :
    command = "version" ∧ invocation = server none ["--version"] ∨
      command = "update" ∧ invocation = INSTALLER ∨
      ∃ request, invocation.command input private_key = some request ∧
        Permitted input private_key request := by
  obtain ⟨branch, hb, args, hargs, htext, rfl⟩ := branch_of_managed h
  have hword : args = [] → command = branch.name := by
    rintro rfl
    rw [← String.toList_inj, htext]
    exact List.append_nil _
  have hendpoint : ∀ {endpoint} {f : String → Command}, Endpoint endpoint →
      (value endpoint).map f = some (f endpoint) :=
    fun he => by rw [value_of_endpoint he, Option.map_some]
  have hkey : ∀ {public_key} {f : String → Command}, validate_peer_key public_key = .ok () →
      (value public_key).map f = some (f public_key) :=
    fun hk => by rw [value_of_key hk, Option.map_some]
  simp only [BRANCHES, List.mem_cons, List.not_mem_nil, or_false] at hb
  rcases hb with rfl | rfl | rfl | rfl | rfl | rfl | rfl | rfl | rfl | rfl | rfl | rfl | rfl | rfl
  · exact .inl ⟨hword (List.forall₂_nil_left_iff.mp hargs), rfl⟩
  · exact .inr (.inr ⟨_, rfl, .capabilities⟩)
  · exact .inr (.inl ⟨hword (List.forall₂_nil_left_iff.mp hargs), rfl⟩)
  · exact .inr (.inr ⟨_, rfl, .managed_status⟩)
  · obtain ⟨endpoint, he, rfl⟩ := forall₂_one hargs
    exact .inr (.inr ⟨_, hendpoint he, .create_friend he⟩)
  · obtain ⟨public_key, hk, rfl⟩ := forall₂_one hargs
    exact .inr (.inr ⟨_, hkey hk, .rename_friend hk⟩)
  · obtain ⟨public_key, hk, rfl⟩ := forall₂_one hargs
    exact .inr (.inr ⟨_, hkey hk, .revoke_friend hk⟩)
  · obtain ⟨public_key, rest, hk, hrest, rfl⟩ := List.forall₂_cons_left_iff.mp hargs
    obtain ⟨endpoint, he, rfl⟩ := forall₂_one hrest
    refine .inr (.inr ⟨.friend_profile public_key endpoint, ?_, .friend_profile hk he⟩)
    show ((value public_key).bind fun public_key => (value endpoint).bind fun endpoint =>
      some (Command.friend_profile public_key endpoint)) = _
    rw [value_of_key hk, value_of_endpoint he]
    rfl
  · exact .inr (.inr ⟨_, rfl, .restart_vpn⟩)
  · exact .inr (.inr ⟨_, rfl, .enable_warp⟩)
  · exact .inr (.inr ⟨_, rfl, .disable_warp⟩)
  · obtain ⟨endpoint, he, rfl⟩ := forall₂_one hargs
    exact .inr (.inr ⟨_, hendpoint he, .create_router_profile he⟩)
  · obtain ⟨endpoint, he, rfl⟩ := forall₂_one hargs
    exact .inr (.inr ⟨_, hendpoint he, .create_profile he⟩)
  · obtain ⟨public_key, hk, rfl⟩ := forall₂_one hargs
    exact .inr (.inr ⟨_, hkey hk, .remove_router_peer hk⟩)

/-- Why a connection ended without success: exit status 126, another one with what was printed, or a
program that was killed. -/
inductive Exit
  | refused
  | failed (message : String)
  | killed
deriving DecidableEq

section

variable [Platform] (install : Vps → Except Exit Unit × Vps)

/-- What a connection prints and makes of the server. What the installer does is not modelled. -/
def Session.serve (session : Session) (s : Vps) : Except Exit String × Vps :=
  match gofro_managed session.command with
  | none => (.error .refused, s)
  | some invocation =>
    if invocation = server none ["--version"] then (.ok ("gofro-server " ++ VERSION ++ "\n"), s)
    else if invocation = INSTALLER then ((install s).1.map fun _ => "", (install s).2)
    else match invocation.command session.input session.private_key with
      | none => (.error (.failed "error: unrecognized arguments"), s)
      | some command => match (dispatch "gt0" session.faults command).exec s with
        | (.ok output, s') => (.ok output, s')
        | (.error (.error message), s') => (.error (.failed message), s')
        | (.error .killed, s') => (.error .killed, s')

/-- The server after a session. -/
def Session.step (s : Vps) (session : Session) : Vps := (session.serve install s).2

/-- A permitted step. -/
inductive Confined (session : Session) (s : Vps) : Vps → Prop
  | unchanged : Confined session s s
  | installed (h : session.command = "update") : Confined session s (install s).2
  | run {command : Command} (h : Permitted session.input session.private_key command) :
    Confined session s (Event.step "gt0" s (.run command session.faults))

variable {install} {s : Vps}

theorem Session.serve_refused {session : Session} (h : gofro_managed session.command = none) :
    session.serve install s = (.error .refused, s) := by
  rw [Session.serve, h]

theorem Session.serve_version {session : Session}
    (h : gofro_managed session.command = some (server none ["--version"])) :
    session.serve install s = (.ok ("gofro-server " ++ VERSION ++ "\n"), s) := by
  rw [Session.serve, h]
  exact if_pos rfl

theorem Session.serve_update {session : Session}
    (h : gofro_managed session.command = some INSTALLER) :
    session.serve install s = ((install s).1.map fun _ => "", (install s).2) := by
  rw [Session.serve, h]
  rfl

theorem Session.serve_command {session : Session} {invocation : Invocation} {command : Command}
    (h : gofro_managed session.command = some invocation)
    (hcommand : invocation.command session.input session.private_key = some command) :
    session.serve install s = match (dispatch "gt0" session.faults command).exec s with
      | (.ok output, s') => (.ok output, s')
      | (.error (.error message), s') => (.error (.failed message), s')
      | (.error .killed, s') => (.error .killed, s') := by
  have hversion : invocation ≠ server none ["--version"] := by
    rintro rfl
    cases hcommand
  have hinstaller : invocation ≠ INSTALLER := by
    rintro rfl
    cases hcommand
  rw [Session.serve, h]
  simp only [if_neg hversion, if_neg hinstaller, hcommand]

theorem Session.step_command {session : Session} {invocation : Invocation} {command : Command}
    (h : gofro_managed session.command = some invocation)
    (hcommand : invocation.command session.input session.private_key = some command) :
    session.step install s = Event.step "gt0" s (.run command session.faults) := by
  rw [Session.step, serve_command h hcommand, Event.step]
  rcases (dispatch "gt0" session.faults command).exec s with ⟨output | stop, s'⟩
  · cases output <;> rfl
  · rfl

theorem Session.confined (session : Session) :
    Confined install session s (session.step install s) := by
  cases hmanaged : gofro_managed session.command with
  | none =>
    rw [Session.step, serve_refused hmanaged]
    exact .unchanged
  | some invocation =>
    rcases managed_cases hmanaged session.input session.private_key with
      ⟨-, rfl⟩ | ⟨hupdate, rfl⟩ | ⟨command, hcommand, hpermitted⟩
    · rw [Session.step, serve_version hmanaged]
      exact .unchanged
    · rw [Session.step, serve_update hmanaged]
      exact .installed hupdate
    · rw [step_command hmanaged hcommand]
      exact .run hpermitted

theorem Permitted.added {input private_key public_key : String} {command : Command}
    (h : Permitted input private_key command) (hkey : pubkey private_key ≠ public_key) :
    command.added ≠ some public_key := by
  cases h with
  | create_friend | create_router_profile | create_profile =>
    exact fun he => hkey (Option.some.inj he)
  | _ => exact fun he => nomatch he

/-- **Whatever is asked for over SSH**, every step is a permitted command, the installer or nothing,
and no peer gets onto the interface but with a key that the server has made itself. -/
theorem sessions_confined (install : Vps → Except Exit Unit × Vps) (s : Vps)
    (sessions : List Session) :
    Along (Session.step install)
        (fun s session => Confined install session s (session.step install s)) s sessions ∧
      ∀ public_key, Away public_key s →
        (∀ s, Away public_key s → Away public_key (install s).2) →
        (∀ session ∈ sessions, pubkey session.private_key ≠ public_key) →
          Away public_key (run (Session.step install) s sessions) := by
  refine ⟨?_, fun public_key haway hinstall hkeys => ?_⟩
  · induction sessions generalizing s with
    | nil => trivial
    | cons session sessions ih => exact ⟨session.confined, ih _⟩
  · refine (along_of_forall hkeys).invariant (fun s session hkey h => ?_) haway
    have hstep : Confined install session s (session.step install s) := session.confined
    generalize session.step install s = s' at hstep
    cases hstep with
    | unchanged => exact h
    | installed _ => exact hinstall s h
    | run hpermitted => exact h.step (hpermitted.added hkey)

end

/-- A key that one text would add and another would smuggle in. -/
theorem sessions_confined_sample : letI := sample_platform
    Away CAROL (run (Session.step fun s => (.ok (), s)) sample [
      ⟨"add-peer --public-key " ++ CAROL ++ " --tunnel-ip 10.202.0.9/32", "", BOB, Faults.none⟩,
      ⟨"create-profile 198.51.100.1:8443 --public-key=" ++ CAROL, "", BOB, Faults.none⟩,
      ⟨"create-router-profile [::1]:8443", "", "Ddddddddddddddddddddddddddddddddddddddddddd=",
        Faults.none⟩]) :=
  letI := sample_platform
  (sessions_confined (fun s => (.ok (), s)) sample _).2 CAROL ⟨by decide, by decide⟩ (fun _ h => h)
    (by decide)

end Gofro.Server

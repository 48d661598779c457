import GofroRouter.Agent.NormalForm
import GofroRouter.Relay.Codec

/-!
# WireGuard profiles

`parse_server_profile` of `config.rs`: a profile is read line by line, with the current section and
one slot for each of the seven parameters.

* `read_line`, `read_lines`: the loop; `check_profile`: what is made of the slots.
* `body`: the lines that say something, each with its section, by recursion on the lines.
* **`read_lines_iff`**: the loop ends with full slots exactly when these lines are the seven
  parameters in some order.
* **`parse_server_profile_iff`**, **`profile_grammar`**: the profiles that are accepted.
-/

namespace Gofro.Agent

open Text

def MAX_PROFILE_SIZE : ℕ := 4096

/-- The only value of `AllowedIPs` that is taken. -/
def ALLOWED_IPS : String := "0.0.0.0/0"
def KEEPALIVE : ℕ := 10
def MTU : ℕ := Relay.TUNNEL_MTU

/-! ## Reading lines -/

/-- The current section. -/
inductive Part | none | interface | peer
deriving DecidableEq

/-- The parameters of a profile, each of which is needed. -/
inductive Param | private_key | address | mtu | public_key | allowed_ips | endpoint | keepalive
deriving DecidableEq

/-- In the order in which they are checked. -/
def Param.all : List Param :=
  [.private_key, .address, .mtu, .public_key, .allowed_ips, .endpoint, .keepalive]

theorem Param.mem_all (p : Param) : p ∈ Param.all := by cases p <;> decide

/-- The parameter that a key means in a section. -/
def param : Part → String → Option Param
  | .none, _ => .none
  | .interface, key =>
    if key = "PrivateKey" then some .private_key
    else if key = "Address" then some .address
    else if key = "MTU" then some .mtu
    else .none
  | .peer, key =>
    if key = "PublicKey" then some .public_key
    else if key = "AllowedIPs" then some .allowed_ips
    else if key = "Endpoint" then some .endpoint
    else if key = "PersistentKeepalive" then some .keepalive
    else .none

/-- The state of the loop: the section, and the values so far. -/
structure Reader where
  part : Part
  slots : Param → Option String

/-- A parameter may be set once. -/
def set_profile_value (slot : Option String) (value key : String) :
    Except String (Option String) :=
  if slot.isSome then .error ("параметр " ++ key ++ " указан несколько раз") else .ok (some value)

/-- A line `Key = Value`. -/
def read_entry (st : Reader) (key value : String) : Except String Reader :=
  if value = "" then .error ("пустое значение " ++ key ++ " в WireGuard-профиле")
  else match param st.part key with
    | some p => do
      let slot ← set_profile_value (st.slots p) value key
      return { st with slots := Function.update st.slots p slot }
    | none =>
      if st.part = .none then
        .error ("параметр " ++ key ++ " находится вне секции WireGuard-профиля")
      else .error ("неподдерживаемый параметр WireGuard-профиля: " ++ key)

/-- One round of the loop over the lines. -/
def read_line (st : Reader) (raw_line : List Char) : Except String Reader :=
  let line := trim_matches is_whitespace raw_line
  if line = [] || line.head? = some '#' || line.head? = some ';' then .ok st
  else if line.head? = some '[' && ends_with ']' line then
    if line = "[Interface]".toList then .ok { st with part := .interface }
    else if line = "[Peer]".toList then .ok { st with part := .peer }
    else .error ("неподдерживаемая секция WireGuard-профиля: " ++ String.ofList line)
  else match split_once '=' line with
    | none => .error "строка WireGuard-профиля должна иметь формат Key = Value"
    | some (key, value) =>
      read_entry st (String.ofList (trim_matches is_whitespace key))
        (String.ofList (trim_matches is_whitespace value))

/-- The loop; the first error ends it. -/
def read_lines : List (List Char) → Reader → Except String Reader
  | [], st => .ok st
  | line :: lines, st => do read_lines lines (← read_line st line)

/-! ## Checking the values -/

/-- No parameter may be left out. -/
def required_profile_value (value : Option String) (key : String) : Except String String :=
  match value with
  | some value => .ok value
  | none => .error ("в WireGuard-профиле отсутствует " ++ key)

/-- The parts between commas, trimmed. -/
def trim_parts (value : String) : String :=
  String.ofList ([','].intercalate ((split ',' value).map (trim_matches is_whitespace)))

/-- The values, once all lines have been read. -/
def check_profile [Management] (name : String) (slots : Param → Option String) :
    Except String ServerProfile := do
  let client_tunnel_address ←
    normalize_tunnel_address (← required_profile_value (slots .address) "Address")
  let allowed_ips := trim_parts (← required_profile_value (slots .allowed_ips) "AllowedIPs")
  bail_if (allowed_ips != ALLOWED_IPS) ("Gofro поддерживает AllowedIPs = " ++ ALLOWED_IPS)
  let keepalive ← required_profile_value (slots .keepalive) "PersistentKeepalive"
  let some persistent_keepalive := parse_unsigned 10 65535 keepalive.toList
    | .error "PersistentKeepalive должен быть целым числом"
  bail_if (persistent_keepalive != KEEPALIVE)
    ("Gofro поддерживает PersistentKeepalive = " ++ KEEPALIVE.repr)
  let some mtu := parse_unsigned 10 65535 (← required_profile_value (slots .mtu) "MTU").toList
    | .error "MTU должен быть целым числом"
  bail_if (mtu ∉ [MTU, 1280, 1360]) ("Gofro поддерживает MTU = " ++ MTU.repr ++ ", 1280 или 1360")
  let endpoint ← required_profile_value (slots .endpoint) "Endpoint"
  let public_key ← required_profile_value (slots .public_key) "PublicKey"
  let private_key ← required_profile_value (slots .private_key) "PrivateKey"
  let name ← normalize_server_name name
  let server : ServerProfile :=
    ⟨name, "", endpoint, public_key, some client_tunnel_address, some private_key, none⟩
  validate_server server
  return server

/-- The import of a profile under a name that the user gives. -/
def parse_server_profile [Management] (name profile : String) : Except String ServerProfile := do
  bail_if (MAX_PROFILE_SIZE < len profile) "WireGuard-профиль слишком большой"
  let st ← read_lines (lines profile) ⟨.none, fun _ => none⟩
  check_profile name st.slots

/-! ## The grammar -/

/-- What a line says. -/
inductive Line
  | blank
  | header (part : Part)
  | entry (key value : String)
  | other
deriving DecidableEq

/-- What a line is, apart from where it stands. -/
def line_of (raw_line : List Char) : Line :=
  let line := trim_matches is_whitespace raw_line
  if line = [] || line.head? = some '#' || line.head? = some ';' then .blank
  else if line.head? = some '[' && ends_with ']' line then
    if line = "[Interface]".toList then .header .interface
    else if line = "[Peer]".toList then .header .peer
    else .other
  else match split_once '=' line with
    | none => .other
    | some (key, value) => .entry (String.ofList (trim_matches is_whitespace key))
        (String.ofList (trim_matches is_whitespace value))

/-- The lines that are not blank, no comment and no header, each with the section it is in. -/
def body : Part → List (List Char) → List (Part × Line)
  | _, [] => []
  | part, raw_line :: lines =>
    match line_of raw_line with
    | .blank => body part lines
    | .header part => body part lines
    | line => (part, line) :: body part lines

/-- The section of a parameter. -/
def Param.part : Param → Part
  | .private_key | .address | .mtu => .interface
  | .public_key | .allowed_ips | .endpoint | .keepalive => .peer

/-- The key of a parameter. -/
def Param.key : Param → String
  | .private_key => "PrivateKey"
  | .address => "Address"
  | .mtu => "MTU"
  | .public_key => "PublicKey"
  | .allowed_ips => "AllowedIPs"
  | .endpoint => "Endpoint"
  | .keepalive => "PersistentKeepalive"

/-- The line that gives a parameter its value, in the section where it belongs. -/
def Param.line (p : Param) (value : String) : Part × Line := (p.part, .entry p.key value)

theorem param_eq_some {part : Part} {key : String} {p : Param} :
    param part key = some p ↔ p.part = part ∧ p.key = key := by
  cases part <;> simp only [param]
  · cases p <;> simp [Param.part]
  · split_ifs <;> cases p <;> simp_all [Param.part, Param.key, eq_comm]
  · split_ifs <;> cases p <;> simp_all [Param.part, Param.key, eq_comm]

theorem Param.line_inj {p q : Param} {v w : String} (h : p.line v = q.line w) : p = q ∧ v = w := by
  obtain ⟨hpart, hline⟩ := Prod.mk.inj h
  obtain ⟨hkey, hv⟩ := Line.entry.inj hline
  have hp := param_eq_some.mpr ⟨hpart, hkey⟩
  have hq := param_eq_some.mpr (⟨rfl, rfl⟩ : q.part = q.part ∧ q.key = q.key)
  rw [hp] at hq
  exact ⟨Option.some.inj hq, hv⟩

/-! ## The loop -/

theorem read_line_eq_ok {st st' : Reader} {raw_line : List Char} :
    read_line st raw_line = .ok st' ↔ match line_of raw_line with
      | .blank => st' = st
      | .header part => st' = { st with part }
      | .entry key value => read_entry st key value = .ok st'
      | .other => False := by
  unfold read_line line_of
  dsimp only
  split_ifs
  · simp [eq_comm]
  · simp [eq_comm]
  · simp [eq_comm]
  · simp
  · cases split_once '=' (trim_matches is_whitespace raw_line) with
    | none => simp
    | some parts => rfl

theorem read_entry_eq_ok {st st' : Reader} {key value : String} :
    read_entry st key value = .ok st' ↔ ∃ p : Param, (p.part = st.part ∧ p.key = key) ∧
      value ≠ "" ∧ st.slots p = none ∧
        st' = { st with slots := Function.update st.slots p (some value) } := by
  unfold read_entry
  by_cases hv : value = ""
  · simp [hv]
  rw [if_neg hv]
  cases hp : param st.part key with
  | none =>
    have hnone : ∀ p : Param, ¬ (p.part = st.part ∧ p.key = key) := fun p h => by
      rw [param_eq_some.mpr h] at hp
      cases hp
    simp only [hnone, false_and, exists_false, iff_false]
    split_ifs <;> simp
  | some p =>
    have hsome : ∀ q : Param, (q.part = st.part ∧ q.key = key) ↔ q = p := fun q => by
      rw [← param_eq_some, hp, Option.some.injEq, eq_comm]
    simp only [hsome, exists_eq_left, ne_eq, hv, not_false_eq_true, true_and, set_profile_value]
    cases hs : st.slots p with
    | none => simp [bind, Except.bind, pure, Except.pure, eq_comm]
    | some old => simp [bind, Except.bind]

/-- Slots that are filled one after another, none twice. -/
def Filled : (Param → Option String) → List (Param × String) → (Param → Option String) → Prop
  | slots, [], slots' => slots' = slots
  | slots, (p, value) :: entries, slots' =>
    value ≠ "" ∧ slots p = none ∧ Filled (Function.update slots p (some value)) entries slots'

/-- **The loop** fills the slots with what the lines say. -/
theorem read_lines_eq_ok {lines : List (List Char)} {st : Reader} {slots : Param → Option String} :
    (∃ part, read_lines lines st = .ok ⟨part, slots⟩) ↔
      ∃ entries, body st.part lines = entries.map (fun e => e.1.line e.2) ∧
        Filled st.slots entries slots := by
  induction lines generalizing st with
  | nil =>
    constructor
    · rintro ⟨part, h⟩
      cases h
      exact ⟨[], rfl, rfl⟩
    · rintro ⟨entries, hb, hf⟩
      cases List.map_eq_nil_iff.mp hb.symm
      exact ⟨st.part, congrArg Except.ok (by cases st; cases hf; rfl)⟩
  | cons raw_line lines ih =>
    simp only [read_lines, bind_eq_ok, read_line_eq_ok, body]
    cases line_of raw_line with
    | blank => simpa using ih
    | header part => simpa using @ih { st with part }
    | other =>
      simp only [false_and, exists_false, false_iff, not_exists, not_and]
      intro entries hb
      cases entries with
      | nil => cases hb
      | cons e entries => cases (Prod.mk.inj (List.cons.inj hb).1).2
    | entry key value =>
      simp only [read_entry_eq_ok]
      constructor
      · rintro ⟨part, st', ⟨p, ⟨hp, hk⟩, hv, hs, rfl⟩, h⟩
        obtain ⟨entries, hb, hf⟩ := ih.mp ⟨part, h⟩
        refine ⟨(p, value) :: entries, ?_, hv, hs, hf⟩
        rw [List.map_cons, ← hb, Param.line, hp, hk]
      · rintro ⟨entries, hb, hf⟩
        cases entries with
        | nil => cases hb
        | cons e entries =>
          obtain ⟨he, hrest⟩ := List.cons.inj hb
          obtain ⟨hpart, hline⟩ := Prod.mk.inj he
          obtain ⟨rfl, rfl⟩ := Line.entry.inj hline
          obtain ⟨hv, hs, hf⟩ := hf
          obtain ⟨part, h⟩ := (@ih { st with slots := Function.update st.slots e.1 (some e.2) }).mpr
            ⟨entries, hrest, hf⟩
          exact ⟨part, _, ⟨e.1, ⟨hpart.symm, rfl⟩, hv, hs, rfl⟩, h⟩

theorem filled_iff {slots slots' : Param → Option String} {entries : List (Param × String)} :
    Filled slots entries slots' ↔ (entries.map Prod.fst).Nodup ∧
      (∀ e ∈ entries, e.2 ≠ "" ∧ slots e.1 = none) ∧
        ∀ p value, slots' p = some value ↔ (p, value) ∈ entries ∨ slots p = some value := by
  induction entries generalizing slots with
  | nil =>
    simp only [Filled, List.map_nil, List.nodup_nil, List.not_mem_nil, false_or, true_and]
    constructor
    · rintro rfl
      exact ⟨fun _ h => (nomatch h), fun p value => Iff.rfl⟩
    · exact fun h => funext fun p => Option.ext fun value => h.2 p value
  | cons e entries ih =>
    obtain ⟨p, value⟩ := e
    simp only [Filled, ih, List.map_cons, List.nodup_cons, List.forall_mem_cons]
    -- the rest fills slots that are free besides the first
    have hfree : (∀ e ∈ entries, e.2 ≠ "" ∧ Function.update slots p (some value) e.1 = none) ↔
        p ∉ entries.map Prod.fst ∧ ∀ e ∈ entries, e.2 ≠ "" ∧ slots e.1 = none := by
      constructor
      · intro h
        refine ⟨fun hm => ?_, fun e he => ⟨(h e he).1, ?_⟩⟩
        · obtain ⟨e, he, rfl⟩ := List.mem_map.mp hm
          simpa using (h e he).2
        · have hne : e.1 ≠ p := by
            rintro rfl
            simpa using (h e he).2
          simpa [hne] using (h e he).2
      · rintro ⟨hp, h⟩ e he
        have hne : e.1 ≠ p := fun hep => hp (hep ▸ List.mem_map_of_mem he)
        simpa [hne] using h e he
    have hsame : slots p = none → ∀ q v,
        ((q, v) ∈ entries ∨ Function.update slots p (some value) q = some v) ↔
          ((q, v) ∈ (p, value) :: entries ∨ slots q = some v) := by
      intro hs q v
      by_cases hq : q = p
      · subst hq
        simp [hs, eq_comm, or_comm]
      · simp [hq]
    rw [hfree]
    constructor
    · rintro ⟨hv, hs, hn, ⟨hp, hf⟩, hl⟩
      exact ⟨⟨hp, hn⟩, ⟨⟨hv, hs⟩, hf⟩, fun q v => (hl q v).trans (hsame hs q v)⟩
    · rintro ⟨⟨hp, hn⟩, ⟨⟨hv, hs⟩, hf⟩, hl⟩
      exact ⟨hv, hs, hn, ⟨hp, hf⟩, fun q v => (hl q v).trans (hsame hs q v).symm⟩

/-- The seven parameters, with a value each. -/
def profile (values : Param → String) : List (Part × Line) :=
  Param.all.map fun p => p.line (values p)

/-- Filled with these values: the entries are the seven parameters in some order. -/
theorem filled_all_iff {values : Param → String} {entries : List (Param × String)} :
    Filled (fun _ => none) entries (fun p => some (values p)) ↔
      entries.Perm (Param.all.map fun p => (p, values p)) ∧ ∀ p, values p ≠ "" := by
  have hall : Param.all.Nodup := by decide
  have hnodup : (Param.all.map fun p => (p, values p)).Nodup :=
    hall.map fun p q h => (Prod.mk.inj h).1
  rw [filled_iff]
  simp only [Option.some.injEq, and_true, reduceCtorEq, or_false]
  constructor
  · rintro ⟨hn, hv, hl⟩
    refine ⟨(List.perm_ext_iff_of_nodup (.of_map _ hn) hnodup).mpr fun e => ?_,
      fun p => hv (p, values p) ((hl p _).mp rfl)⟩
    rw [← hl e.1 e.2, List.mem_map]
    constructor
    · exact fun he => ⟨e.1, e.1.mem_all, Prod.ext rfl he⟩
    · rintro ⟨p, -, rfl⟩
      rfl
  · rintro ⟨hp, hv⟩
    have hmem : ∀ e : Param × String, e ∈ entries ↔ values e.1 = e.2 := fun e => by
      rw [hp.mem_iff, List.mem_map]
      constructor
      · rintro ⟨p, -, rfl⟩
        rfl
      · exact fun he => ⟨e.1, e.1.mem_all, Prod.ext rfl he⟩
    refine ⟨?_, fun e he => (hmem e).mp he ▸ hv e.1, fun p value => (hmem (p, value)).symm⟩
    rw [(hp.map Prod.fst).nodup_iff, List.map_map]
    simpa [Function.comp_def] using hall

/-- **Every slot is filled** exactly when the lines are the seven parameters in some order. -/
theorem read_lines_iff {lines : List (List Char)} {values : Param → String} :
    (∃ part, read_lines lines ⟨.none, fun _ => none⟩ = .ok ⟨part, fun p => some (values p)⟩) ↔
      (body .none lines).Perm (profile values) ∧ ∀ p, values p ≠ "" := by
  have hinj : Function.Injective fun e : Param × String => e.1.line e.2 := fun e e' h =>
    Prod.ext (Param.line_inj h).1 (Param.line_inj h).2
  have hprofile : profile values =
      (Param.all.map fun p => (p, values p)).map fun e => e.1.line e.2 := by
    rw [List.map_map]
    rfl
  simp only [read_lines_eq_ok, filled_all_iff, hprofile]
  constructor
  · rintro ⟨entries, hb, hp, hv⟩
    exact ⟨hb ▸ hp.map _, hv⟩
  · rintro ⟨hp, hv⟩
    have hline : ∀ x ∈ body .none lines, ∃ e : Param × String, e.1.line e.2 = x := fun x hx => by
      obtain ⟨e, -, he⟩ := List.mem_map.mp (hp.mem_iff.mp hx)
      exact ⟨e, he⟩
    obtain ⟨entries, hb⟩ : ∃ entries : List (Param × String),
        entries.map (fun e => e.1.line e.2) = body .none lines := by
      exact (Set.range_list_map fun e : Param × String => e.1.line e.2).symm.subset hline
    exact ⟨entries, hb.symm, (List.map_perm_map_iff hinj).mp (hb ▸ hp), hv⟩

/-! ## The checks -/

/-- The check of a parameter's value. -/
def Param.Valid : Param → String → Prop
  | .private_key, value => validate_wireguard_key value "private" = .ok ()
  | .address, value => ∃ address, normalize_tunnel_address value = .ok address
  | .mtu, value => ∃ mtu ∈ [MTU, 1280, 1360], parse_unsigned 10 65535 value.toList = some mtu
  | .public_key, value => validate_wireguard_key value "public" = .ok ()
  | .allowed_ips, value => trim_parts value = ALLOWED_IPS
  | .endpoint, value => validate_endpoint value = .ok () ∧
    ((rsplit_once ':' value).any fun p => p.1.any (· ∈ [':', '[', ']'])) = false
  | .keepalive, value => parse_unsigned 10 65535 value.toList = some KEEPALIVE

theorem normalize_tunnel_address_fixed {value address : String}
    (h : normalize_tunnel_address value = .ok address) :
    normalize_tunnel_address address = .ok address := by
  unfold normalize_tunnel_address at h
  split at h
  · rename_i network hn
    simp only [bind_eq_ok, bail_if_eq_ok] at h
    obtain ⟨u, hb, he⟩ := h
    obtain rfl : network.toString = address := Except.ok.inj he
    simp only [normalize_tunnel_address, Ipv4.Net.ofString?_toString, hb]
    rfl
  · cases h

theorem Param.Valid.ne_empty {p : Param} {value : String} (h : p.Valid value) : value ≠ "" := by
  rintro rfl
  cases p with
  | private_key =>
    exact absurd (show validate_wireguard_key "" "private" = .ok () from h) (by decide +kernel)
  | address =>
    obtain ⟨address, h⟩ := h
    cases h
  | mtu =>
    obtain ⟨mtu, -, h⟩ := h
    cases h
  | public_key =>
    exact absurd (show validate_wireguard_key "" "public" = .ok () from h) (by decide +kernel)
  | allowed_ips => exact absurd (show trim_parts "" = ALLOWED_IPS from h) (by decide +kernel)
  | endpoint => exact absurd h.1 (by decide +kernel)
  | keepalive => cases h

theorem required_profile_value_eq_ok {slot : Option String} {key value : String} :
    required_profile_value slot key = .ok value ↔ slot = some value := by
  cases slot <;> simp [required_profile_value]

theorem validate_imported [Management] {name endpoint public_key address private_key : String} :
    validate_server ⟨name, "", endpoint, public_key, some address, some private_key, none⟩ = .ok () ↔
      validate_server_name name = .ok () ∧
        (validate_endpoint endpoint = .ok () ∧
          ((rsplit_once ':' endpoint).any fun p => p.1.any (· ∈ [':', '[', ']'])) = false) ∧
        validate_wireguard_key public_key "public" = .ok () ∧
        (∃ address', normalize_tunnel_address address = .ok address') ∧
        validate_wireguard_key private_key "private" = .ok () := by
  have hemoji : validate_emoji "" = .ok () := by decide +kernel
  have hdiscard : ∀ u : Unit, discard (normalize_tunnel_address address) = .ok u ↔
      ∃ address', normalize_tunnel_address address = .ok address' := by
    intro u
    cases normalize_tunnel_address address <;> simp [discard, Functor.mapConst, Except.map]
  simp only [validate_server, validate_saved_server, bind_eq_ok, bail_if_eq_ok, hemoji, hdiscard]
  constructor
  · rintro ⟨_, ⟨_, hn, _, -, _, he, _, hp, _, ha, _, hk, -⟩, hv⟩
    exact ⟨hn, ⟨he, hv⟩, hp, ha, hk⟩
  · rintro ⟨hn, ⟨he, hv⟩, hp, ha, hk⟩
    exact ⟨(), ⟨(), hn, (), trivial, (), he, (), hp, (), ha, (), hk, rfl⟩, hv⟩

theorem valid_of_check_profile [Management] {name : String} {slots : Param → Option String}
    {server : ServerProfile} (h : check_profile name slots = .ok server) :
    ∃ values : Param → String, slots = (fun p => some (values p)) ∧
      (∀ p : Param, p.Valid (values p)) ∧ ∃ name' address,
        normalize_server_name name = .ok name' ∧
        normalize_tunnel_address (values .address) = .ok address ∧
        server = ⟨name', "", values .endpoint, values .public_key, some address,
          some (values .private_key), none⟩ := by
  unfold check_profile at h
  simp only [bind_eq_ok, required_profile_value_eq_ok, bail_if_eq_ok] at h
  obtain ⟨address, haddress, tunnel, htunnel, allowed_ips, hallowed, _, hips, keepalive,
    hkeepalive, h⟩ := h
  split at h
  · rename_i interval hinterval
    simp only [bind_eq_ok, required_profile_value_eq_ok, bail_if_eq_ok] at h
    obtain ⟨_, hkeep, mtu, hmtu, h⟩ := h
    split at h
    · rename_i size hsize
      simp only [bind_eq_ok, required_profile_value_eq_ok, bail_if_eq_ok] at h
      obtain ⟨_, hmem, endpoint, hendpoint, public_key, hpublic, private_key, hprivate, name',
        hname, _, hserver, he⟩ := h
      obtain ⟨-, hep, hpub, -, hpriv⟩ := validate_imported.mp hserver
      refine ⟨fun
        | .private_key => private_key
        | .address => address
        | .mtu => mtu
        | .public_key => public_key
        | .allowed_ips => allowed_ips
        | .endpoint => endpoint
        | .keepalive => keepalive, ?_, ?_, name', tunnel, hname, htunnel, (Except.ok.inj he).symm⟩
      · funext p
        cases p with
        | private_key => exact hprivate
        | address => exact haddress
        | mtu => exact hmtu
        | public_key => exact hpublic
        | allowed_ips => exact hallowed
        | endpoint => exact hendpoint
        | keepalive => exact hkeepalive
      · rintro (_ | _)
        · exact hpriv
        · exact ⟨tunnel, htunnel⟩
        · exact ⟨size, not_not.mp (of_decide_eq_false hmem), hsize⟩
        · exact hpub
        · exact bne_eq_false_iff_eq.mp hips
        · exact hep
        · rw [bne_eq_false_iff_eq.mp hkeep] at hinterval
          exact hinterval
    · cases h
  · cases h

theorem check_profile_of_valid [Management] {name name' address : String} {values : Param → String}
    (hv : ∀ p : Param, p.Valid (values p)) (hname : normalize_server_name name = .ok name')
    (ha : normalize_tunnel_address (values .address) = .ok address) :
    check_profile name (fun p => some (values p)) = .ok ⟨name', "", values .endpoint,
      values .public_key, some address, some (values .private_key), none⟩ := by
  obtain ⟨size, hmem, hsize⟩ := hv .mtu
  have hips : bail_if (trim_parts (values .allowed_ips) != ALLOWED_IPS)
      ("Gofro поддерживает AllowedIPs = " ++ ALLOWED_IPS) = .ok () :=
    bail_if_eq_ok.mpr (bne_eq_false_iff_eq.mpr (hv .allowed_ips))
  have hkeep : parse_unsigned 10 65535 (values .keepalive).toList = some KEEPALIVE := hv .keepalive
  have hserver : validate_server ⟨name', "", values .endpoint, values .public_key, some address,
      some (values .private_key), none⟩ = .ok () := by
    refine validate_imported.mpr ⟨?_, hv .endpoint, hv .public_key,
      ⟨address, normalize_tunnel_address_fixed ha⟩, hv .private_key⟩
    simp only [normalize_server_name, bind_eq_ok] at hname
    obtain ⟨_, hn, he⟩ := hname
    rw [← Except.ok.inj he]
    exact hn
  have hinterval : bail_if (KEEPALIVE != KEEPALIVE)
      ("Gofro поддерживает PersistentKeepalive = " ++ KEEPALIVE.repr) = .ok () := rfl
  have hsizes : bail_if (decide (size ∉ [MTU, 1280, 1360]))
      ("Gofro поддерживает MTU = " ++ MTU.repr ++ ", 1280 или 1360") = .ok () :=
    bail_if_eq_ok.mpr (decide_eq_false (not_not.mpr hmem))
  have hbind : ∀ {α β : Type} (a : α) (f : α → Except String β), (Except.ok a >>= f) = f a :=
    fun _ _ => rfl
  simp only [check_profile, required_profile_value, hbind, ha, hips, hkeep, hinterval, hsize,
    hsizes, hname, hserver]
  rfl

/-! ## Accepted profiles -/

/-- **The profiles that are accepted.** -/
theorem parse_server_profile_iff [Management] {name profile_text : String} {server : ServerProfile}
    (hlen : len profile_text ≤ MAX_PROFILE_SIZE) :
    parse_server_profile name profile_text = .ok server ↔ ∃ values : Param → String,
      (body .none (lines profile_text)).Perm (profile values) ∧
        (∀ p : Param, p.Valid (values p)) ∧ ∃ name' address,
          normalize_server_name name = .ok name' ∧
          normalize_tunnel_address (values .address) = .ok address ∧
          server = ⟨name', "", values .endpoint, values .public_key, some address,
            some (values .private_key), none⟩ := by
  have hsize : bail_if (decide (MAX_PROFILE_SIZE < len profile_text))
      "WireGuard-профиль слишком большой" = .ok () :=
    bail_if_eq_ok.mpr (decide_eq_false (not_lt.mpr hlen))
  simp only [parse_server_profile, bind_eq_ok, hsize]
  constructor
  · rintro ⟨-, -, ⟨part, slots⟩, hread, hcheck⟩
    obtain ⟨values, rfl, hv, hs⟩ := valid_of_check_profile hcheck
    exact ⟨values, (read_lines_iff.mp ⟨part, hread⟩).1, hv, hs⟩
  · rintro ⟨values, hp, hv, name', address, hname, ha, rfl⟩
    obtain ⟨part, hread⟩ := read_lines_iff.mpr ⟨hp, fun p => (hv p).ne_empty⟩
    exact ⟨(), trivial, _, hread, check_profile_of_valid hv hname ha⟩

/-- The line of a parameter in its section. -/
def is_param (p : Param) : Part × Line → Bool
  | (part, .entry key _) => param part key = some p
  | _ => false

theorem is_param_iff {p : Param} {line : Part × Line} :
    is_param p line = true ↔ ∃ value, line = p.line value := by
  obtain ⟨part, line⟩ := line
  cases line with
  | entry key value =>
    rw [is_param, decide_eq_true_eq, param_eq_some]
    constructor
    · rintro ⟨rfl, rfl⟩
      exact ⟨value, rfl⟩
    · rintro ⟨v, h⟩
      obtain ⟨hpart, hline⟩ := Prod.mk.inj h
      exact ⟨hpart.symm, (Line.entry.inj hline).1.symm⟩
  | blank => simp [is_param, Param.line]
  | header next => simp [is_param, Param.line]
  | other => simp [is_param, Param.line]

/-- **The grammar**: but for blank lines, comments and headers, every line is one of the parameters
in its section, with a valid value, and every parameter has one line. -/
structure Grammar (lines : List (List Char)) : Prop where
  known : ∀ line ∈ body .none lines, ∃ p value, line = Param.line p value ∧ p.Valid value
  once : ∀ p, (body .none lines).countP (is_param p) = 1

theorem grammar_iff {lines : List (List Char)} : Grammar lines ↔ ∃ values : Param → String,
    (body .none lines).Perm (profile values) ∧ ∀ p : Param, p.Valid (values p) := by
  constructor
  · rintro ⟨hknown, honce⟩
    have hsome : ∀ p : Param, ∃ value, p.line value ∈ body .none lines ∧ p.Valid value := fun p => by
      obtain ⟨line, hm, hp⟩ := List.countP_pos_iff.mp (by rw [honce p]; exact one_pos)
      obtain ⟨value, rfl⟩ := is_param_iff.mp hp
      obtain ⟨q, v, he, hv⟩ := hknown _ hm
      obtain ⟨rfl, rfl⟩ := Param.line_inj he
      exact ⟨value, hm, hv⟩
    choose values hvalues using hsome
    refine ⟨values, ?_, fun p => (hvalues p).2⟩
    have hnodup : (body .none lines).Nodup := by
      rw [List.nodup_iff_count_le_one]
      intro line
      by_cases hm : line ∈ body .none lines
      · obtain ⟨p, value, rfl, -⟩ := hknown line hm
        rw [← honce p, List.count]
        exact List.countP_mono_left fun l _ hl => is_param_iff.mpr ⟨value, eq_of_beq hl⟩
      · rw [List.count_eq_zero.mpr hm]
        exact Nat.zero_le 1
    have hnodup' : (profile values).Nodup :=
      (show Param.all.Nodup by decide).map fun p q h => (Param.line_inj h).1
    refine (List.perm_ext_iff_of_nodup hnodup hnodup').mpr fun line => ?_
    rw [profile, List.mem_map]
    constructor
    · intro hm
      obtain ⟨p, value, rfl, -⟩ := hknown line hm
      -- of one parameter there is one line
      obtain ⟨only, honly⟩ := List.length_eq_one_iff.mp
        (List.countP_eq_length_filter.symm.trans (honce p))
      have hone : ∀ v, p.line v ∈ body .none lines → p.line v = only := fun v hv =>
        List.mem_singleton.mp (honly ▸ List.mem_filter.mpr ⟨hv, is_param_iff.mpr ⟨v, rfl⟩⟩)
      exact ⟨p, p.mem_all, (hone _ (hvalues p).1).trans (hone _ hm).symm⟩
    · rintro ⟨p, -, rfl⟩
      exact (hvalues p).1
  · rintro ⟨values, hp, hv⟩
    refine ⟨fun line hl => ?_, fun p => ?_⟩
    · obtain ⟨p, -, rfl⟩ := List.mem_map.mp (hp.mem_iff.mp hl)
      exact ⟨p, _, rfl, hv p⟩
    · rw [hp.countP_eq, profile, List.countP_map]
      have hself : (is_param p ∘ fun q => q.line (values q)) = fun q => decide (q = p) := by
        funext q
        rw [Function.comp_apply, Bool.eq_iff_iff, is_param_iff, decide_eq_true_eq]
        exact ⟨fun ⟨v, h⟩ => (Param.line_inj h).1, fun h => h ▸ ⟨_, rfl⟩⟩
      rw [hself]
      cases p <;> rfl

/-! ## Rearranging lines -/

/-- The section after some lines. -/
def part_after (part : Part) (lines : List (List Char)) : Part :=
  lines.foldl (fun part line => match line_of line with
    | .header next => next
    | _ => part) part

theorem body_append (part : Part) (before after : List (List Char)) :
    body part (before ++ after) = body part before ++ body (part_after part before) after := by
  induction before generalizing part with
  | nil => rfl
  | cons line before ih =>
    simp only [List.cons_append, body, part_after, List.foldl_cons]
    cases line_of line <;> simp [ih, part_after]

theorem body_header {line : List Char} {next : Part} (h : line_of line = .header next)
    (part : Part) (lines : List (List Char)) : body part (line :: lines) = body next lines := by
  simp [body, h]

def is_header (line : List Char) : Prop := ∃ part, line_of line = .header part

/-- A blank line or a comment is added, two lines of a section change places, or two sections. -/
inductive Rearranged : List (List Char) → List (List Char) → Prop
  | blank (before after : List (List Char)) {line : List Char} (h : line_of line = .blank) :
    Rearranged (before ++ after) (before ++ line :: after)
  | lines (before after : List (List Char)) {line line' : List Char} (h : ¬ is_header line)
    (h' : ¬ is_header line') :
    Rearranged (before ++ line :: line' :: after) (before ++ line' :: line :: after)
  | sections (before after : List (List Char)) {line line' : List Char}
    (lines lines' : List (List Char)) (h : is_header line) (h' : is_header line')
    (hafter : ∀ next ∈ after.head?, is_header next) :
    Rearranged (before ++ (line :: lines) ++ (line' :: lines') ++ after)
      (before ++ (line' :: lines') ++ (line :: lines) ++ after)

/-- **Rearranging** keeps the lines that say something, each in its section. -/
theorem Rearranged.body_perm {l l' : List (List Char)} (h : Rearranged l l') :
    (body .none l).Perm (body .none l') := by
  cases h with
  | blank before after h =>
    rw [body_append, body_append]
    simp [body, h]
  | @lines before after line line' h h' =>
    rw [body_append, body_append]
    apply List.Perm.append_left
    have hcons : ∀ part, ∀ line, ¬ is_header line → ∃ head : List (Part × Line),
        ∀ rest, body part (line :: rest) = head ++ body part rest := by
      intro part line hline
      cases hl : line_of line with
      | blank => exact ⟨[], fun rest => by simp [body, hl]⟩
      | header next => exact absurd ⟨next, hl⟩ hline
      | entry key value => exact ⟨[(part, .entry key value)], fun rest => by simp [body, hl]⟩
      | other => exact ⟨[(part, .other)], fun rest => by simp [body, hl]⟩
    obtain ⟨head, hhead⟩ := hcons (part_after .none before) line h
    obtain ⟨head', hhead'⟩ := hcons (part_after .none before) line' h'
    rw [hhead, hhead', hhead', hhead, ← List.append_assoc, ← List.append_assoc]
    exact List.perm_append_comm.append_right _
  | @sections before after line line' lines lines' h h' hafter =>
    have hrest : ∀ part part', body part after = body part' after := by
      intro part part'
      cases after with
      | nil => rfl
      | cons next after =>
        obtain ⟨p, hp⟩ := hafter next rfl
        rw [body_header hp, body_header hp]
    obtain ⟨p, hp⟩ := h
    obtain ⟨p', hp'⟩ := h'
    simp only [body_append, body_header hp, body_header hp']
    rw [hrest (part_after .none (before ++ line :: lines ++ line' :: lines')) .none,
      hrest (part_after .none (before ++ line' :: lines' ++ line :: lines)) .none]
    apply List.Perm.append_right
    rw [List.append_assoc, List.append_assoc]
    exact List.perm_append_comm.append_left _

theorem eqvGen_body_perm {l l' : List (List Char)} (h : Relation.EqvGen Rearranged l l') :
    (body .none l).Perm (body .none l') := by
  induction h with
  | rel l l' h => exact h.body_perm
  | refl l => exact .refl _
  | symm l l' _ ih => exact ih.symm
  | trans l l' l'' _ _ ih ih' => exact ih.trans ih'

/-- **The grammar of profiles.** A text that is not too long is accepted exactly when the name is
valid and the text is in the grammar; what comes out does not change when it is rearranged; and a
key that is unknown, not in its section, missing or repeated makes it fail. -/
theorem profile_grammar [Management] (name : String) {text : String} (hlen : len text ≤ MAX_PROFILE_SIZE) :
    ((∃ server, parse_server_profile name text = .ok server) ↔
      (∃ name', normalize_server_name name = .ok name') ∧ Grammar (lines text)) ∧
    (∀ text', len text' ≤ MAX_PROFILE_SIZE →
      Relation.EqvGen Rearranged (lines text) (lines text') → ∀ server,
        parse_server_profile name text = .ok server ↔
          parse_server_profile name text' = .ok server) ∧
    ((∃ part key value, (part, Line.entry key value) ∈ body .none (lines text) ∧
        param part key = none) ∨ (∃ p, (body .none (lines text)).countP (is_param p) ≠ 1) →
      ∀ server, parse_server_profile name text ≠ .ok server) := by
  have hgrammar : (∃ server, parse_server_profile name text = .ok server) ↔
      (∃ name', normalize_server_name name = .ok name') ∧ Grammar (lines text) := by
    simp only [parse_server_profile_iff hlen, grammar_iff]
    constructor
    · rintro ⟨server, values, hp, hv, name', address, hname, -, -⟩
      exact ⟨⟨name', hname⟩, values, hp, hv⟩
    · rintro ⟨⟨name', hname⟩, values, hp, hv⟩
      obtain ⟨address, ha⟩ := hv .address
      exact ⟨_, values, hp, hv, name', address, hname, ha, rfl⟩
  refine ⟨hgrammar, fun text' hlen' h server => ?_, fun h server hs => ?_⟩
  · have hperm := eqvGen_body_perm h
    rw [parse_server_profile_iff hlen, parse_server_profile_iff hlen']
    exact exists_congr fun values => and_congr_left fun _ => hperm.congr_left _
  · obtain ⟨-, hknown, honce⟩ := hgrammar.mp ⟨server, hs⟩
    rcases h with ⟨part, key, value, hm, hnone⟩ | ⟨p, hp⟩
    · obtain ⟨p, v, he, -⟩ := hknown _ hm
      obtain ⟨hpart, hline⟩ := Prod.mk.inj he
      rw [param_eq_some.mpr ⟨hpart.symm, (Line.entry.inj hline).1.symm⟩] at hnone
      cases hnone
    · exact hp (honce p)

/-! ### A profile -/

def sampleProfile : String :=
  "# client\n[Peer]\nPublicKey = aq2K6tZ6JqYCpNPLseGJPHceMMxxEdkx5AeRm6cEfSE=\n" ++
    "AllowedIPs = 0.0.0.0/0\n\n[Interface]\nMTU = 1280\nAddress = 10.202.0.5/32\n" ++
    "PrivateKey = 4E64fyqMJsXY6YaAp8M3qM7r6Xj6YjAfuPeWbdMvIHE=\n[Peer]\n" ++
    "Endpoint = vpn.example.com:8443\nPersistentKeepalive = 10\n"

def sampleValues : Param → String
  | .private_key => "4E64fyqMJsXY6YaAp8M3qM7r6Xj6YjAfuPeWbdMvIHE="
  | .address => "10.202.0.5/32"
  | .mtu => "1280"
  | .public_key => "aq2K6tZ6JqYCpNPLseGJPHceMMxxEdkx5AeRm6cEfSE="
  | .allowed_ips => "0.0.0.0/0"
  | .endpoint => "vpn.example.com:8443"
  | .keepalive => "10"

theorem sampleProfile_len : len sampleProfile ≤ MAX_PROFILE_SIZE := by decide +kernel

theorem sampleProfile_grammar : Grammar (lines sampleProfile) := by
  refine grammar_iff.mpr ⟨sampleValues, by decide +kernel, fun p => ?_⟩
  cases p with
  | private_key =>
    show validate_wireguard_key (sampleValues .private_key) "private" = .ok ()
    decide +kernel
  | address => exact ⟨"10.202.0.5/32", by decide +kernel⟩
  | mtu => exact ⟨1280, by decide +kernel, by decide +kernel⟩
  | public_key =>
    show validate_wireguard_key (sampleValues .public_key) "public" = .ok ()
    decide +kernel
  | allowed_ips =>
    show trim_parts (sampleValues .allowed_ips) = ALLOWED_IPS
    decide +kernel
  | endpoint => exact ⟨by decide +kernel, by decide +kernel⟩
  | keepalive =>
    show parse_unsigned 10 65535 (sampleValues .keepalive).toList = some KEEPALIVE
    decide +kernel

/-- `profile_grammar` on it. -/
theorem profile_grammar_sample :
    letI : Management := ⟨fun _ => .ok ()⟩
    ∃ server, parse_server_profile "Primary" sampleProfile = .ok server :=
  (@profile_grammar ⟨fun _ => .ok ()⟩ "Primary" sampleProfile sampleProfile_len).1.mpr
    ⟨⟨"Primary", by decide +kernel⟩, sampleProfile_grammar⟩

/-- Without a name, the same text is refused. -/
theorem unnamed_profile_refused :
    letI : Management := ⟨fun _ => .ok ()⟩
    len sampleProfile ≤ MAX_PROFILE_SIZE ∧ Grammar (lines sampleProfile) ∧
      ∀ server, parse_server_profile "" sampleProfile ≠ .ok server := by
  refine ⟨sampleProfile_len, sampleProfile_grammar, fun server h => ?_⟩
  obtain ⟨-, -, -, name', -, hname, -⟩ :=
    (@parse_server_profile_iff ⟨fun _ => .ok ()⟩ _ _ _ sampleProfile_len).mp h
  simp only [normalize_server_name, bind_eq_ok] at hname
  obtain ⟨_, hn, -⟩ := hname
  exact absurd (show validate_server_name (trim "") = .ok () from hn) (by decide +kernel)

end Gofro.Agent

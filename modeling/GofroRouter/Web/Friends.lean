import GofroRouter.Agent.Managed
import GofroRouter.Lib.Utf16
import GofroRouter.Web.Rules

/-!
# Friends in the web panel

The schemas of `schemas.ts` for the names of friends and for the status of a managed server, on
strings of UTF-16 units, beside the checks of the server and of the agent.

* `friendNameSchema_units`: the schema on the units of a text.
* `friendPeerSchema_units`: and on a peer that the agent accepts.
* **`friend_names_agree_iff`**: a name means the same everywhere unless it begins or ends with a
  byte-order mark, or has a surrogate that stands alone.
-/

namespace Gofro.Web

open Text
open Agent (bail_if_eq_ok bind_eq_ok validate_managed_status)
open Server (validate_name validate_peer_key)

/-! ## Schemas -/

/-- A string of the panel, of UTF-16 units. -/
abbrev Units := List UInt16

/-- The units of a text. -/
def units (s : String) : Units := Utf16.encode s.toList

def white_space (u : UInt16) : Bool := js_space u.toNat

/-- `String.prototype.trim` -/
def trim_units (us : Units) : Units := (us.dropWhile white_space).rdropWhile white_space

/-- `[\x00-\x1f\x7f-\x9f]` -/
def control_unit (u : UInt16) : Bool := u.toNat < 0x20 || (0x7f ≤ u.toNat && u.toNat ≤ 0x9f)

/-- The trimmed name. -/
def friendNameSchema (input : Units) : Option Units :=
  let value := trim_units input
  if 1 ≤ value.length && (Utf16.codePoints value ≤ 60 && !value.any control_unit) then some value
  else none

/-- `[A-Za-z0-9+/]` -/
def key_unit (u : UInt16) : Bool :=
  let n := u.toNat
  (65 ≤ n && n ≤ 90) || (97 ≤ n && n ≤ 122) || (48 ≤ n && n ≤ 57) || n = 43 || n = 47

/-- `/^[A-Za-z0-9+/]{43}=$/` -/
def key_pattern (us : Units) : Bool :=
  us.length = 44 && us.dropLast.all key_unit && us.getLast? = some 61

/-- A friend, with texts as JavaScript has them. -/
structure FriendPeer where
  public_key : Units
  name : Units
  revoked : Bool
  can_share : Bool
deriving DecidableEq

structure ManagedServerStatus where
  version : Units
  peers : List FriendPeer
  warp : Option Server.WarpStatus
deriving DecidableEq

/-- A revoked friend cannot be shared. -/
def friendPeerSchema (peer : FriendPeer) : Option FriendPeer := do
  guard (key_pattern peer.public_key)
  let name ← friendNameSchema peer.name
  guard (!peer.revoked || !peer.can_share)
  return { peer with name }

/-- The keys of friends have to be different. -/
def managedServerStatusSchema (status : ManagedServerStatus) : Option ManagedServerStatus := do
  let peers ← status.peers.mapM friendPeerSchema
  guard (status.warp.all fun warp => !warp.connected || (warp.installed && warp.enabled))
  guard ((peers.map FriendPeer.public_key).dedup.length = peers.length)
  return { status with peers }

/-- A peer as the panel reads it from the agent. -/
def peer_units (peer : Server.FriendPeer) : FriendPeer :=
  ⟨units peer.public_key, units peer.name, peer.revoked, peer.can_share⟩

/-- A status as the panel reads it from the agent. -/
def status_units (status : Server.ManagedServerStatus) : ManagedServerStatus :=
  ⟨units status.version, status.peers.map peer_units, status.warp⟩

/-! ## Names -/

variable {name : String}

theorem lifts_white_space : Utf16.Lifts js_whitespace white_space :=
  Utf16.lifts_of_code js_space fun n h => by
    simp only [js_space, Bool.or_eq_true, Bool.and_eq_true, decide_eq_true_eq] at h
    omega

theorem lifts_control : Utf16.Lifts is_control control_unit :=
  Utf16.lifts_of_code (fun n => n < 0x20 || (0x7f ≤ n && n ≤ 0x9f)) fun n h => by
    simp only [Bool.or_eq_true, Bool.and_eq_true, decide_eq_true_eq] at h
    omega

theorem trim_units_units (name : String) : trim_units (units name) = units (js_trim name) := by
  rw [trim_units, units, lifts_white_space.dropWhile_encode, lifts_white_space.rdropWhile_encode,
    units, js_trim, String.toList_ofList]
  rfl

theorem friendNameSchema_units (name : String) : friendNameSchema (units name) =
    if js_trim name ≠ "" ∧ (js_trim name).toList.length ≤ 60 ∧
      (js_trim name).toList.any is_control = false then some (units (js_trim name)) else none := by
  have hne : 1 ≤ (units (js_trim name)).length ↔ js_trim name ≠ "" := by
    rw [Nat.one_le_iff_ne_zero, ne_eq, List.length_eq_zero_iff, units, Utf16.encode_eq_nil,
      String.toList_eq_nil_iff]
  have hlen : Utf16.codePoints (units (js_trim name)) = (js_trim name).toList.length :=
    Utf16.codePoints_encode _
  have hany : (units (js_trim name)).any control_unit = (js_trim name).toList.any is_control :=
    lifts_control.any_encode _
  simp only [friendNameSchema, trim_units_units, hlen, hany, Bool.and_eq_true, decide_eq_true_eq,
    Bool.not_eq_true', hne]

theorem validate_name_eq_self : validate_name name = .ok name ↔ trim name = name ∧ name ≠ "" ∧
    name.toList.length ≤ 60 ∧ name.toList.any is_control = false := by
  simp only [validate_name, bind_eq_ok, bail_if_eq_ok, Bool.or_eq_false_iff, decide_eq_false_iff_not,
    pure, Except.pure, Except.ok.injEq, exists_const]
  constructor
  · rintro ⟨⟨⟨hne, hlen⟩, hany⟩, htrim⟩
    rw [htrim] at hne hlen hany
    exact ⟨htrim, fun he => hne (by rw [he]; rfl), by omega, hany⟩
  · rintro ⟨htrim, hne, hlen, hany⟩
    rw [htrim]
    exact ⟨⟨⟨fun he => hne (String.toList_eq_nil_iff.mp he), by omega⟩, hany⟩, rfl⟩

theorem js_trim_within (name : String) : (js_trim name).toList <:+: name.toList := by
  rw [js_trim, String.toList_ofList]
  exact (trimEnd_initial _ _).isInfix.trans (List.dropWhile_suffix _).isInfix

theorem js_trim_ne_empty : js_trim name ≠ "" ↔ ∃ c ∈ name.toList, js_whitespace c = false := by
  have hnil : js_trim name = "" ↔ trim_matches js_whitespace name.toList = [] := by
    rw [js_trim, ← String.toList_eq_nil_iff, String.toList_ofList]
  rw [ne_eq, hnil, trim_matches, trimEnd, List.reverse_eq_nil_iff, List.dropWhile_eq_nil_iff]
  constructor
  · intro h
    obtain ⟨c, hc, hw⟩ : ∃ c ∈ (name.toList.dropWhile js_whitespace).reverse,
        js_whitespace c = false := by simpa using h
    exact ⟨c, List.dropWhile_sublist _ |>.subset (List.mem_reverse.mp hc), hw⟩
  · rintro ⟨c, hc, hw⟩ hall
    have hd : name.toList.dropWhile js_whitespace = [] := by
      cases hl : name.toList.dropWhile js_whitespace with
      | nil => rfl
      | cons d ds =>
        have hd := List.head_dropWhile_not js_whitespace (l := name.toList) (by simp [hl])
        simp only [hl, List.head_cons] at hd
        exact absurd (hall d (by simp [hl])) (by simp [hd])
    exact absurd (List.dropWhile_eq_nil_iff.mp hd c hc) (by simp [hw])

theorem friendNameSchema_valid (h : validate_name name = .ok name) :
    friendNameSchema (units name) =
      if js_trim name ≠ "" then some (units (js_trim name)) else none := by
  obtain ⟨_, _, hlen, hany⟩ := validate_name_eq_self.mp h
  have hle : (js_trim name).toList.length ≤ 60 := (js_trim_within name).length_le.trans hlen
  have hcontrol : (js_trim name).toList.any is_control = false := by
    rw [List.any_eq_false] at hany ⊢
    exact fun c hc => hany c ((js_trim_within name).subset hc)
  simp only [friendNameSchema_units, hle, hcontrol, and_true]

theorem units_injective : Function.Injective units := fun _ _ h =>
  String.toList_injective (Utf16.encode_injective h)

theorem friendNameSchema_eq_self (h : validate_name name = .ok name) :
    friendNameSchema (units name) = some (units name) ↔ ¬ Marked name := by
  obtain ⟨htrim, hne, _⟩ := validate_name_eq_self.mp h
  rw [friendNameSchema_valid h, ← js_trim_trimmed htrim]
  constructor
  · intro hs
    split_ifs at hs
    exact units_injective (Option.some_injective _ hs)
  · intro hs
    rw [hs, if_pos hne]

/-- Unicode has one white-space character more, and it is a control character. -/
theorem not_whitespace_of_js {c : Char} (hw : js_whitespace c = false) (hc : is_control c = false) :
    is_whitespace c = false := by
  simp only [js_whitespace, js_space, is_control, is_whitespace, Bool.or_eq_false_iff,
    Bool.and_eq_false_iff, decide_eq_false_iff_not] at hw hc ⊢
  omega

/-- What the schema makes of the units of a text is left as it is by the server. -/
theorem validate_name_of_schema {value : Units} (h : friendNameSchema (units name) = some value) :
    ∃ name, units name = value ∧ validate_name name = .ok name := by
  rw [friendNameSchema_units] at h
  split_ifs at h with hok
  cases h
  obtain ⟨hne, hlen, hany⟩ := hok
  refine ⟨js_trim name, rfl, validate_name_eq_self.mpr ⟨?_, hne, hlen, hany⟩⟩
  have hends : js_trim (js_trim name) = js_trim name := by
    rw [js_trim, js_trim, String.toList_ofList, trim_matches_twice]
  rw [List.any_eq_false] at hany
  obtain ⟨hhead, hlast⟩ := js_trim_eq_self.mp hends
  refine trim_eq_self.mpr ⟨fun c hc => not_whitespace_of_js (hhead c hc) ?_,
    fun c hc => not_whitespace_of_js (hlast c hc) ?_⟩
  · simpa using hany c (List.mem_of_mem_head? hc)
  · simpa using hany c (List.mem_of_getLast? hc)

theorem not_surrogate_of_white_space {u : UInt16} (h : white_space u = true) :
    Utf16.is_surrogate u = false := by
  simp only [white_space, js_space, Bool.or_eq_true, Bool.and_eq_true, decide_eq_true_eq] at h
  simp only [Utf16.is_surrogate, Utf16.is_high, Utf16.is_low, Bool.or_eq_false_iff,
    Bool.and_eq_false_iff, decide_eq_false_iff_not]
  omega

theorem isSome_decode_trim (us : Units) :
    (Utf16.decode (trim_units us)).isSome = (Utf16.decode us).isSome := by
  have hsplit : us = us.takeWhile white_space ++ trim_units us ++
      (us.dropWhile white_space).rtakeWhile white_space := by
    rw [List.append_assoc, trim_units, List.rdropWhile_append_rtakeWhile,
      List.takeWhile_append_dropWhile]
  conv_rhs => rw [hsplit]
  refine (Utf16.isSome_decode_between (fun u hu => ?_) (fun u hu => ?_) _).symm
  · exact not_surrogate_of_white_space (List.mem_takeWhile_imp hu)
  · exact not_surrogate_of_white_space (List.mem_rtakeWhile_imp hu)

/-- A name of the panel means the same to the server if no surrogate stands alone in it. -/
theorem validate_name_of_schema_iff {input value : Units} (h : friendNameSchema input = some value) :
    (∃ name, units name = value ∧ validate_name name = .ok name) ↔
      (Utf16.decode input).isSome = true := by
  constructor
  · rintro ⟨name, hname, _⟩
    have hvalue : value = trim_units input := by
      simp only [friendNameSchema] at h
      split_ifs at h
      exact (Option.some_injective _ h).symm
    rw [← isSome_decode_trim, ← hvalue, ← hname, units, Utf16.decode_encode, Option.isSome_some]
  · intro hs
    obtain ⟨cs, hcs⟩ := Option.isSome_iff_exists.mp hs
    have hunits : input = units (String.ofList cs) := by
      rw [units, String.toList_ofList, Utf16.decode_eq_some_iff.mp hcs]
    rw [hunits] at h
    exact validate_name_of_schema h

/-! ## Statuses -/

theorem key_unit_iff {c : Char} (h : c.toNat < 128) : key_unit (UInt16.ofNat c.toNat) = true ↔
    (is_ascii_alphanumeric c || c = '+' || c = '/') = true := by
  have hnat : (UInt16.ofNat c.toNat).toNat = c.toNat :=
    UInt16.toNat_ofNat_of_lt' (show _ < 65536 by omega)
  have hplus : c = '+' ↔ c.toNat = 43 :=
    ⟨fun h => h ▸ rfl, fun h => Char.ext (UInt32.toNat_inj.mp h)⟩
  have hslash : c = '/' ↔ c.toNat = 47 :=
    ⟨fun h => h ▸ rfl, fun h => Char.ext (UInt32.toNat_inj.mp h)⟩
  simp only [key_unit, hnat, Bool.or_eq_true, Bool.and_eq_true, decide_eq_true_eq,
    is_ascii_alphanumeric_iff, hplus, hslash]
  omega

theorem key_pattern_units {key : String} (h : validate_peer_key key = .ok ()) :
    key_pattern (units key) = true := by
  simp only [validate_peer_key, bail_if_eq_ok, Bool.or_eq_false_iff, bne_eq_false_iff_eq,
    Bool.not_eq_false', List.all_eq_true] at h
  obtain ⟨⟨hlen, hlast⟩, hall⟩ := h
  have hsplit : key.toList = key.toList.dropLast ++ ['='] :=
    (List.dropLast_append_getLast? _ hlast).symm
  have hascii : ∀ c ∈ key.toList, c.toNat < 128 := by
    intro c hc
    rw [hsplit, List.mem_append, List.mem_singleton] at hc
    rcases hc with hc | rfl
    · have hk := hall c hc
      simp only [Bool.or_eq_true, decide_eq_true_eq] at hk
      rcases hk with (ha | rfl) | rfl
      · exact ascii_of_alphanumeric ha
      · decide
      · decide
    · decide
  have hunits : units key = key.toList.map fun c => UInt16.ofNat c.toNat := Utf16.encode_ascii hascii
  rw [key_pattern, hunits, List.length_map, ← List.map_dropLast, List.getLast?_map, hlast,
    ← byteLen_ascii hascii]
  simp only [Bool.and_eq_true, decide_eq_true_eq, List.all_eq_true, List.mem_map]
  refine ⟨⟨hlen, ?_⟩, rfl⟩
  rintro u ⟨c, hc, rfl⟩
  exact (key_unit_iff (hascii c (List.dropLast_subset _ hc))).mpr (hall c hc)

/-- A peer with its name trimmed as the panel trims it. -/
def peer_trimmed (peer : Server.FriendPeer) : FriendPeer :=
  { peer_units peer with name := units (js_trim peer.name) }

theorem friendPeerSchema_units {peer : Server.FriendPeer} (h : Agent.Valid peer) :
    friendPeerSchema (peer_units peer) =
      if js_trim peer.name ≠ "" then some (peer_trimmed peer) else none := by
  have hstate : (!peer.revoked || !peer.can_share) = true := by
    rw [← Bool.not_and, Bool.and_comm, h.state, Bool.not_false]
  simp only [friendPeerSchema, peer_units, key_pattern_units h.public_key,
    friendNameSchema_valid h.name, hstate, guard_true]
  split_ifs
  · rfl
  · rfl

theorem mapM_ite {α β γ : Type} {f : β → Option γ} {g : α → β} {k : α → γ} {p : α → Prop}
    [DecidablePred p] {l : List α} (h : ∀ a ∈ l, f (g a) = if p a then some (k a) else none) :
    (l.map g).mapM f = if ∀ a ∈ l, p a then some (l.map k) else none := by
  induction l with
  | nil => rfl
  | cons a l ih =>
    have hl := ih fun b hb => h b (List.mem_cons_of_mem _ hb)
    rw [List.map_cons, List.mapM_cons, h a List.mem_cons_self, hl]
    by_cases ha : p a
    · rw [if_pos ha]
      simp only [List.mem_cons, forall_eq_or_imp, ha, true_and]
      split_ifs
      · rfl
      · rfl
    · have hnot : ¬ ∀ b ∈ a :: l, p b := fun hall => ha (hall a List.mem_cons_self)
      rw [if_neg ha, if_neg hnot]
      rfl

/-- A status that the agent accepts is parsed if something is left of every name. -/
theorem managedServerStatusSchema_units {status : Server.ManagedServerStatus}
    (h : validate_managed_status status = .ok ()) :
    managedServerStatusSchema (status_units status) =
      if ∀ peer ∈ status.peers, js_trim peer.name ≠ "" then
        some { status_units status with peers := status.peers.map peer_trimmed } else none := by
  obtain ⟨-, hwarp, hvalid, hnodup⟩ := Agent.validate_managed_status_eq_ok.mp h
  have hpeers : (status.peers.map peer_units).mapM friendPeerSchema =
      if ∀ peer ∈ status.peers, js_trim peer.name ≠ "" then
        some (status.peers.map peer_trimmed) else none :=
    mapM_ite fun peer hp => friendPeerSchema_units (hvalid peer hp)
  have hhealth : (status.warp.all fun warp => !warp.connected || (warp.installed && warp.enabled)) =
      true := by
    cases hw : status.warp with
    | none => rfl
    | some warp =>
      have := hwarp warp (by rw [hw]; rfl)
      cases hc : warp.connected
      · simp [hc]
      · simp [hc, this hc]
  have hkeys : ((status.peers.map peer_trimmed).map FriendPeer.public_key).dedup.length =
      (status.peers.map peer_trimmed).length := by
    have hmap : (status.peers.map peer_trimmed).map FriendPeer.public_key =
        (status.peers.map Server.FriendPeer.public_key).map units := by
      rw [List.map_map, List.map_map]
      rfl
    rw [hmap, (hnodup.map units_injective).dedup, List.length_map, List.length_map, List.length_map]
  simp only [managedServerStatusSchema, status_units, hpeers]
  split_ifs
  · simp only [Option.bind_eq_bind, Option.bind_some, hhealth, hkeys, guard_true]
    rfl
  · rfl

/-- **Friends' names.** What the server returns is left as it is by the panel exactly if it neither
begins nor ends with a byte-order mark; a status that the agent accepts is parsed exactly if no name
in it is white space for the panel; and what the panel makes of a name is left as it is by the
server exactly if the name is well formed. -/
theorem friend_names_agree_iff (given name : String) (status : Server.ManagedServerStatus)
    (input value : Units) :
    (validate_name given = .ok name →
      (friendNameSchema (units name) = some (units name) ↔ ¬ Marked name)) ∧
    (validate_managed_status status = .ok () →
      ((managedServerStatusSchema (status_units status)).isSome = true ↔
        ∀ peer ∈ status.peers, ∃ c ∈ peer.name.toList, js_whitespace c = false)) ∧
    (friendNameSchema input = some value →
      ((∃ name, units name = value ∧ validate_name name = .ok name) ↔
        (Utf16.decode input).isSome = true)) := by
  refine ⟨fun h => ?_, fun h => ?_, fun h => ?_⟩
  · exact friendNameSchema_eq_self (Server.validate_name_twice h)
  · simp only [managedServerStatusSchema_units h, ← js_trim_ne_empty]
    split_ifs with hall
    · simpa using hall
    · simpa using hall
  · exact validate_name_of_schema_iff h

/-- A status with one friend, called `\uFEFF`. -/
def markedStatus : Server.ManagedServerStatus :=
  ⟨"0.5.26", [⟨"Aaaaaaaaaaaaaaaaaaaaaaaaaaaaaaaaaaaaaaaaaaa=", "\uFEFF", false, true⟩], none⟩

/-- The server returns it and the agent accepts it, but the panel does not; and the panel takes a
surrogate alone, which no text of the server is. -/
theorem marked_friend_refused :
    validate_name "\uFEFF" = .ok "\uFEFF" ∧ friendNameSchema (units "\uFEFF") = none ∧
      validate_managed_status markedStatus = .ok () ∧
      managedServerStatusSchema (status_units markedStatus) = none ∧
      friendNameSchema [0xd800] = some [0xd800] ∧ ¬ ∃ name, units name = [0xd800] := by
  refine ⟨by decide +kernel, by decide +kernel, by decide +kernel, by decide +kernel,
    by decide +kernel, ?_⟩
  rintro ⟨name, hname⟩
  have hd : Utf16.decode [0xd800] = none := by decide +kernel
  rw [← hname, units, Utf16.decode_encode] at hd
  cases hd

end Gofro.Web

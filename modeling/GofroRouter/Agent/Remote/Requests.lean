import GofroRouter.Agent.ManagedStatus
import GofroRouter.Agent.Pins.Steps
import GofroRouter.Server.Ssh

/-!
# The commands that the agent sends

`managed.rs` and the end of `managed/bootstrap.rs`: what the agent asks the forced command of a server
for, with the address that the server is managed at and with keys that were checked.

* `validate_management`, `endpoint`: the address of a managed server, and the endpoint made of it.
* `Request`: the commands, their texts, and what they mean to the server.
* **`commands_agree`**: which of them the forced command runs, and as what.
-/

namespace Gofro.Agent.Remote

open Text
open Server (PORT BRANCHES Argument Endpoint Invocation Command gofro_managed validate_peer_key
  validate_managed_endpoint)
open IpAddr (isGroupChar Canonical)

/-! ## Endpoints -/

/-- The address is one as it is printed, and the port is not 0. -/
def validate_management (management : ManagedServer) : Except String Unit := do
  let host := IpAddr.parse management.host
  bail_if (host.isNone || host.any (fun host => host.to_string != management.host) ||
      management.port = 0) "управляемый сервер должен иметь IP-адрес и ненулевой SSH-порт"
  bail_if (!Pins.parse_host_key management.host_key) "invalid ed25519 host key"

/-- The endpoint that a profile is asked for. -/
def endpoint (host : String) : String :=
  match IpAddr.parse host with
  | some (.v6 _) => "[" ++ host ++ "]:8443"
  | _ => host ++ ":8443"

/-- Whether a host is an IPv6 address that is printed with a dotted part. -/
def is_mapped (host : String) : Bool :=
  match IpAddr.parse host with
  | some (.v6 ip) => (IpAddr.mapped ip.segments).isSome
  | _ => false

theorem validate_management_canonical {management : ManagedServer}
    (h : validate_management management = .ok ()) : ∃ ip, Canonical management.host ip := by
  simp only [validate_management, bind_eq_ok, bail_if_eq_ok, Bool.or_eq_false_iff] at h
  obtain ⟨-, ⟨⟨hsome, hsame⟩, -⟩, -⟩ := h
  cases hparse : IpAddr.parse management.host with
  | none =>
    rw [hparse] at hsome
    cases hsome
  | some ip =>
    rw [hparse] at hsame
    exact ⟨ip, hparse, bne_eq_false_iff_eq.mp hsame⟩

variable {host : String} {ip : IpAddr}

theorem toList_endpoint_v4 {a : Ipv4.Addr} (h : Canonical host (.v4 a)) :
    (endpoint host).toList = Ipv4.Net.dotted a ++ PORT := by
  rw [endpoint, h.1]
  show (host ++ ":8443").toList = _
  rw [String.toList_append, h.toList]
  rfl

theorem toList_endpoint_v6 {a : Ipv6Addr} (h : Canonical host (.v6 a)) :
    (endpoint host).toList = '[' :: (IpAddr.display_v6 a ++ [']']) ++ PORT := by
  rw [endpoint, h.1]
  show ("[" ++ host ++ "]:8443").toList = _
  rw [String.toList_append, String.toList_append, h.toList]
  simp [IpAddr.display, PORT]

/-- **The forced command takes the endpoint** unless its host is an IPv4-mapped address. -/
theorem endpoint_iff (h : Canonical host ip) : Endpoint (endpoint host) ↔ is_mapped host = false := by
  cases ip with
  | v4 a =>
    refine iff_of_true ⟨_, toList_endpoint_v4 h, .inl ⟨a, rfl⟩⟩ ?_
    rw [is_mapped, h.1]
  | v6 a =>
    rw [is_mapped, h.1, Option.isSome_eq_false_iff, Option.isNone_iff_eq_none, Endpoint,
      toList_endpoint_v6 h]
    constructor
    · rintro ⟨other, he, hhost⟩
      rw [Option.eq_none_iff_forall_ne_some]
      intro b hb
      have hdot := IpAddr.display_v6_mapped hb
      obtain rfl := List.append_cancel_right he
      rcases hhost with ⟨c, hdotted⟩ | ⟨inner, -, hall, hbracketed⟩
      · have hhead := Server.head_of_dotted (Server.mem_dotted_valid.mpr ⟨c, rfl⟩).1
        rw [← hdotted] at hhead
        exact hhead rfl
      · cases List.append_cancel_right (List.cons_eq_cons.mp hbracketed).2
        exact absurd (hall '.' hdot) (by decide)
    · intro hmapped
      exact ⟨_, rfl, .inr ⟨_, IpAddr.display_v6_ne_nil a, IpAddr.display_v6_chars hmapped, rfl⟩⟩

theorem rsplit_endpoint {text : String} {host : List Char} (h : text.toList = host ++ PORT) :
    rsplit_once ':' text = some (host, "8443".toList) := by
  have hport : ':' ∉ "8443".toList := by decide
  rw [← String.ofList_toList (s := text), h]
  exact rsplit_once_append hport host

theorem not_bracket_of_dotted (a : Ipv4.Addr) :
    (Ipv4.Net.dotted a).head? ≠ some '[' ∧ (Ipv4.Net.dotted a).getLast? ≠ some ']' := by
  have hdotted := (Server.mem_dotted_valid.mpr ⟨a, rfl⟩).1
  refine ⟨Server.head_of_dotted hdotted, fun hlast => ?_⟩
  have hmem := List.mem_of_getLast? hlast
  obtain ⟨b, c, d, e, ⟨hb, hc, hd, he⟩, htext⟩ := Server.mem_dotted.mp hdotted
  have hdigit : ∀ cs ∈ Server.UP_TO_THREE.matches', ']' ∉ cs := fun cs hcs hclose =>
    absurd ((Server.mem_up_to_three.mp hcs).2.2 ']' hclose) (by decide)
  rw [htext] at hmem
  simp only [List.mem_append, List.mem_cons] at hmem
  rcases hmem with hmem | h | hmem | h | hmem | h | hmem
  · exact hdigit b hb hmem
  · exact absurd h (by decide)
  · exact hdigit c hc hmem
  · exact absurd h (by decide)
  · exact hdigit d hd hmem
  · exact absurd h (by decide)
  · exact hdigit e he hmem

/-- What the server takes: a canonical address, in brackets if and only if it is an IPv6 one. -/
theorem validate_managed_endpoint_of {text : String} {cs : List Char} (h : text.toList = cs ++ PORT)
    (hc : Canonical (String.ofList (Server.unbracketed cs)) ip)
    (hb : (decide (cs.head? = some '[') || decide (cs.getLast? = some ']')) = ip.is_ipv6) :
    validate_managed_endpoint text = .ok () := by
  have hsame : (String.ofList (Server.unbracketed cs) != ip.to_string) = false :=
    bne_eq_false_iff_eq.mpr hc.2.symm
  simp only [validate_managed_endpoint, rsplit_endpoint h, bne_self_eq_false, bail_if,
    Bool.false_eq_true, if_false, bind, Except.bind, hc.1, hb, hsame, Bool.false_or]
  cases ip.is_ipv6 <;> rfl

/-- **The server takes the endpoint**, whatever the address. -/
theorem validate_managed_endpoint_endpoint (h : Canonical host ip) :
    validate_managed_endpoint (endpoint host) = .ok () := by
  have hhost : String.ofList ip.display = host := h.2
  cases ip with
  | v4 a =>
    obtain ⟨hhead, hlast⟩ := not_bracket_of_dotted a
    have hplain : Server.unbracketed (Ipv4.Net.dotted a) = Ipv4.Net.dotted a := by
      unfold Server.unbracketed
      split
      · rename_i inner hinner
        rw [hinner] at hhead
        exact absurd rfl hhead
      · rfl
    refine @validate_managed_endpoint_of (.v4 a) _ _ (toList_endpoint_v4 h) ?_ ?_
    · rwa [hplain, show String.ofList (Ipv4.Net.dotted a) = host from hhost]
    · rw [decide_eq_false hhead, decide_eq_false hlast]
      rfl
  | v6 a =>
    have hplain : Server.unbracketed ('[' :: (IpAddr.display_v6 a ++ [']'])) =
        IpAddr.display_v6 a := by
      rw [Server.unbracketed, if_pos List.getLast?_concat, List.dropLast_concat]
    refine @validate_managed_endpoint_of (.v6 a) _ _ (toList_endpoint_v6 h) ?_ rfl
    rwa [hplain, show String.ofList (IpAddr.display_v6 a) = host from hhost]

/-! ## Commands -/

/-- What the agent asks for. -/
inductive Request
  | version
  | update
  | capabilities
  | managed_status
  | restart_vpn
  | set_warp (enabled : Bool)
  | create_profile
  | create_router_profile
  | remove_router_peer (client_public_key : String)
  | create_friend
  | rename_friend (peer_key : String)
  | revoke_friend (peer_key : String)
  | friend_profile (peer_key : String)

/-- The text of a command for a server that is managed at `host`. -/
def Request.text (host : String) : Request → String
  | .version => "version"
  | .update => "update"
  | .capabilities => "capabilities"
  | .managed_status => "managed-status"
  | .restart_vpn => "restart-vpn"
  | .set_warp enabled => if enabled then "enable-warp" else "disable-warp"
  | .create_profile => "create-profile " ++ endpoint host
  | .create_router_profile => "create-router-profile " ++ endpoint host
  | .remove_router_peer client_public_key => "remove-router-peer " ++ client_public_key
  | .create_friend => "create-friend " ++ endpoint host
  | .rename_friend peer_key => "rename-friend " ++ peer_key
  | .revoke_friend peer_key => "revoke-friend " ++ peer_key
  | .friend_profile peer_key => "friend-profile " ++ peer_key ++ " " ++ endpoint host

/-- The keys in a command, which the agent checks. -/
def Request.keys : Request → List String
  | .remove_router_peer key | .rename_friend key | .revoke_friend key | .friend_profile key => [key]
  | _ => []

/-- Whether a command names the endpoint of the server. -/
def Request.names_endpoint : Request → Bool
  | .create_profile | .create_router_profile | .create_friend | .friend_profile _ => true
  | _ => false

/-- What a command means to the server. The other two have nothing to do with its state. -/
def Request.command (host input private_key : String) : Request → Option Command
  | .version | .update => none
  | .capabilities => some .capabilities
  | .managed_status => some .managed_status
  | .restart_vpn => some .restart_vpn
  | .set_warp enabled => some (if enabled then .enable_warp true else .disable_warp)
  | .create_profile => some (.create_profile (endpoint host) none none private_key)
  | .create_router_profile => some (.create_router_profile (endpoint host) private_key)
  | .remove_router_peer client_public_key => some (.remove_router_peer client_public_key)
  | .create_friend => some (.create_friend (endpoint host) input private_key)
  | .rename_friend peer_key => some (.rename_friend peer_key input)
  | .revoke_friend peer_key => some (.revoke_friend peer_key)
  | .friend_profile peer_key => some (.friend_profile peer_key (endpoint host))

/-- The program that the forced command becomes. -/
def Request.invocation (host : String) : Request → Invocation
  | .version => Server.server none ["--version"]
  | .update => Server.INSTALLER
  | .capabilities => Server.server none ["capabilities"]
  | .managed_status => Server.server (some 30) ["managed-status"]
  | .restart_vpn => Server.server (some 60) ["restart-vpn"]
  | .set_warp true => Server.server (some 900) ["enable-warp", "--accept-terms"]
  | .set_warp false => Server.server (some 60) ["disable-warp"]
  | .create_profile => Server.server (some 30) ["create-profile", "--endpoint", endpoint host]
  | .create_router_profile => Server.server (some 30) ["create-router-profile", endpoint host]
  | .remove_router_peer client_public_key =>
    Server.server (some 30) ["remove-router-peer", client_public_key]
  | .create_friend => Server.server (some 30) ["create-friend", endpoint host]
  | .rename_friend peer_key => Server.server (some 30) ["rename-friend", peer_key]
  | .revoke_friend peer_key => Server.server (some 30) ["revoke-friend", peer_key]
  | .friend_profile peer_key => Server.server (some 30) ["friend-profile", peer_key, endpoint host]

/-- The branch of the forced command that a request names, and what it gives it. -/
theorem Request.branch (request : Request) (host : String)
    (hkeys : ∀ key ∈ request.keys, validate_peer_key key = .ok ()) :
    ∃ branch ∈ BRANCHES, ∃ args, (request.text host).toList = branch.text args ∧
      branch.invocation args = request.invocation host ∧
      List.Forall₂ (fun argument arg => argument = .key → argument.Accepts arg) branch.takes args ∧
      (List.Forall₂ Argument.Accepts branch.takes args ↔
        (request.names_endpoint = true → Endpoint (endpoint host))) := by
  have hin : ∀ n, (h : n < BRANCHES.length) → BRANCHES[n] ∈ BRANCHES := fun n h => List.getElem_mem h
  have hnone : (List.Forall₂ Argument.Accepts [] [] ↔ (false = true → Endpoint (endpoint host))) :=
    iff_of_true .nil fun h => absurd h Bool.false_ne_true
  have hone : List.Forall₂ Argument.Accepts [.endpoint] [endpoint host] ↔
      (true = true → Endpoint (endpoint host)) := by
    simp [Argument.Accepts]
  have hkey : ∀ key, validate_peer_key key = .ok () →
      (List.Forall₂ Argument.Accepts [.key] [key] ↔ (false = true → Endpoint (endpoint host))) :=
    fun key hk => iff_of_true (.cons hk .nil) fun h => absurd h Bool.false_ne_true
  have hne : Argument.endpoint ≠ .key := by decide
  have hword : ∀ word : List Char, word = word ++ [] := fun word => (List.append_nil word).symm
  have harg : ∀ {word blank arg : String}, blank.toList = word.toList ++ [' '] →
      (blank ++ arg).toList = word.toList ++ [arg].flatMap fun arg => ' ' :: arg.toList := by
    intro word blank arg hblank
    rw [String.toList_append, hblank]
    simp
  cases request with
  | version => exact ⟨BRANCHES[0], hin 0 (by decide), [], hword _, rfl, .nil, hnone⟩
  | capabilities => exact ⟨BRANCHES[1], hin 1 (by decide), [], hword _, rfl, .nil, hnone⟩
  | update => exact ⟨BRANCHES[2], hin 2 (by decide), [], hword _, rfl, .nil, hnone⟩
  | managed_status => exact ⟨BRANCHES[3], hin 3 (by decide), [], hword _, rfl, .nil, hnone⟩
  | create_friend =>
    exact ⟨BRANCHES[4], hin 4 (by decide), [endpoint host], harg (by decide), rfl,
      .cons (fun h => absurd h hne) .nil, hone⟩
  | rename_friend peer_key =>
    have hk := hkeys peer_key List.mem_cons_self
    exact ⟨BRANCHES[5], hin 5 (by decide), [peer_key], harg (by decide), rfl,
      .cons (fun _ => hk) .nil, hkey peer_key hk⟩
  | revoke_friend peer_key =>
    have hk := hkeys peer_key List.mem_cons_self
    exact ⟨BRANCHES[6], hin 6 (by decide), [peer_key], harg (by decide), rfl,
      .cons (fun _ => hk) .nil, hkey peer_key hk⟩
  | friend_profile peer_key =>
    have hk := hkeys peer_key List.mem_cons_self
    refine ⟨BRANCHES[7], hin 7 (by decide), [peer_key, endpoint host], ?_, rfl,
      .cons (fun _ => hk) (.cons (fun h => absurd h hne) .nil), ?_⟩
    · show ("friend-profile " ++ peer_key ++ " " ++ endpoint host).toList = _
      have hword : ("friend-profile " ++ peer_key).toList =
          "friend-profile".toList ++ [peer_key].flatMap fun arg => ' ' :: arg.toList := harg (by decide)
      rw [String.toList_append, String.toList_append, hword]
      show _ = "friend-profile".toList ++ _
      simp
    · exact ⟨fun h _ => (List.forall₂_cons.mp (List.forall₂_cons.mp h).2).1,
        fun h => .cons hk (.cons (h rfl) .nil)⟩
  | restart_vpn => exact ⟨BRANCHES[8], hin 8 (by decide), [], hword _, rfl, .nil, hnone⟩
  | set_warp enabled =>
    cases enabled with
    | true => exact ⟨BRANCHES[9], hin 9 (by decide), [], hword _, rfl, .nil, hnone⟩
    | false => exact ⟨BRANCHES[10], hin 10 (by decide), [], hword _, rfl, .nil, hnone⟩
  | create_router_profile =>
    exact ⟨BRANCHES[11], hin 11 (by decide), [endpoint host], harg (by decide), rfl,
      .cons (fun h => absurd h hne) .nil, hone⟩
  | create_profile =>
    exact ⟨BRANCHES[12], hin 12 (by decide), [endpoint host], harg (by decide), rfl,
      .cons (fun h => absurd h hne) .nil, hone⟩
  | remove_router_peer client_public_key =>
    have hk := hkeys client_public_key List.mem_cons_self
    exact ⟨BRANCHES[13], hin 13 (by decide), [client_public_key], harg (by decide), rfl,
      .cons (fun _ => hk) .nil, hkey client_public_key hk⟩

theorem value_of_endpoint (h : Canonical host ip) :
    Server.value (endpoint host) = some (endpoint host) := by
  cases ip with
  | v4 a => exact Server.value_of_endpoint ⟨_, toList_endpoint_v4 h, .inl ⟨a, rfl⟩⟩
  | v6 a =>
    rw [Server.value, if_neg]
    rw [toList_endpoint_v6 h]
    exact fun hhead => absurd (Option.some.inj hhead) (by decide)

theorem Request.invocation_command (request : Request) (h : Canonical host ip)
    (hkeys : ∀ key ∈ request.keys, validate_peer_key key = .ok ()) (input private_key : String) :
    (request.invocation host).command input private_key =
      request.command host input private_key := by
  have hendpoint : ∀ {f : String → Command},
      (Server.value (endpoint host)).map f = some (f (endpoint host)) := by
    rw [value_of_endpoint h]
    exact rfl
  have hkey : ∀ {key} {f : String → Command}, validate_peer_key key = .ok () →
      (Server.value key).map f = some (f key) := fun hk => by
    rw [Server.value_of_key hk, Option.map_some]
  cases request with
  | version | update | capabilities | managed_status | restart_vpn => rfl
  | set_warp enabled => cases enabled <;> rfl
  | create_profile | create_router_profile | create_friend => exact hendpoint
  | remove_router_peer key | rename_friend key | revoke_friend key =>
    exact hkey (hkeys key List.mem_cons_self)
  | friend_profile key =>
    show ((Server.value key).bind fun public_key => (Server.value (endpoint host)).bind
      fun endpoint => some (Command.friend_profile public_key endpoint)) = _
    rw [Server.value_of_key (hkeys key List.mem_cons_self), value_of_endpoint h]
    rfl

/-- What the forced command makes of a request. -/
theorem managed_request {management : ManagedServer}
    (h : validate_management management = .ok ()) (request : Request)
    (hkeys : ∀ key ∈ request.keys, validate_peer_key key = .ok ()) :
    gofro_managed (request.text management.host) =
      if request.names_endpoint && is_mapped management.host then none
      else some (request.invocation management.host) := by
  obtain ⟨ip, hc⟩ := validate_management_canonical h
  obtain ⟨branch, hb, args, htext, hinv, hargs, haccepts⟩ := request.branch management.host hkeys
  have hruns : ∀ invocation, gofro_managed (request.text management.host) = some invocation ↔
      (request.names_endpoint = true → is_mapped management.host = false) ∧
        invocation = request.invocation management.host := by
    intro invocation
    rw [Server.gofro_managed_text hb htext hargs, haccepts, endpoint_iff hc, hinv]
  split_ifs with hrefused
  · rw [Bool.and_eq_true] at hrefused
    rw [Option.eq_none_iff_forall_ne_some]
    intro invocation hrun
    have hplain := ((hruns invocation).mp hrun).1 hrefused.1
    rw [hplain] at hrefused
    exact absurd hrefused.2 (by decide)
  · refine (hruns _).mpr ⟨fun hnames => ?_, rfl⟩
    rw [hnames, Bool.true_and] at hrefused
    exact Bool.eq_false_of_not_eq_true hrefused

/-- **The agent and the forced command agree.** Of every command that the agent sends to a server
that it manages, the forced command becomes the program that was meant, with the arguments that were
meant; but it refuses an endpoint with an IPv4-mapped address, which the server itself would take. -/
theorem commands_agree {management : ManagedServer}
    (h : validate_management management = .ok ()) (request : Request)
    (hkeys : ∀ key ∈ request.keys, validate_peer_key key = .ok ()) :
    gofro_managed (request.text management.host) =
        (if request.names_endpoint && is_mapped management.host then none
          else some (request.invocation management.host)) ∧
      (∀ input private_key, (request.invocation management.host).command input private_key =
        request.command management.host input private_key) ∧
      validate_managed_endpoint (endpoint management.host) = .ok () := by
  obtain ⟨ip, hc⟩ := validate_management_canonical h
  refine ⟨managed_request h request hkeys, request.invocation_command hc hkeys, ?_⟩
  exact validate_managed_endpoint_endpoint hc

def sample_management (host : String) : ManagedServer :=
  ⟨host, 22, "ssh-ed25519 AAAAC3NzaC1lZDI1NTE5AAAAIAaaaaaaaaaaaaaaaaaaaaaaaaaaaaaaaaaaaaaaaaaa"⟩

/-- The profile of a friend from a server that is managed at an IPv6 address. -/
theorem commands_agree_sample :
    gofro_managed ((Request.friend_profile Server.BOB).text "2001:db8::1") =
        some (Server.server (some 30) ["friend-profile", Server.BOB, "[2001:db8::1]:8443"]) ∧
      gofro_managed ((Request.friend_profile Server.BOB).text "::ffff:192.0.2.1") = none := by
  have hvalid : ∀ host ∈ ["2001:db8::1", "::ffff:192.0.2.1"],
      validate_management (sample_management host) = .ok () := by decide +kernel
  have hkeys : ∀ key ∈ (Request.friend_profile Server.BOB).keys, validate_peer_key key = .ok () := by
    decide +kernel
  have hplain := (commands_agree (hvalid "2001:db8::1" (by simp)) _ hkeys).1
  have hmapped := (commands_agree (hvalid "::ffff:192.0.2.1" (by simp)) _ hkeys).1
  constructor
  · rw [show (sample_management "2001:db8::1").host = "2001:db8::1" from rfl] at hplain
    rw [hplain]
    decide +kernel
  · rw [show (sample_management "::ffff:192.0.2.1").host = "::ffff:192.0.2.1" from rfl] at hmapped
    rw [hmapped]
    decide +kernel

end Gofro.Agent.Remote

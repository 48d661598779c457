import GofroRouter.Server.Roles

/-!
# Names of live friends

`create` and `rename` compare a new name with those that live friends go by. Peers that are added
without metadata go by their record or their address, which nobody compares.

* `Unique`, `Names`: what would hold of every state.
* `Gentle`: changes that take no route from anybody but router owners. `Planned.gentle`.
* `Clear`: the name of an added peer is free. **`names_unique`**: it is all that is missing.
* `names_collide`: an address that is somebody's name.
-/

namespace Gofro.Server

open Fallible
open Ipv4 (Net)
open Platform (to_lowercase pubkey)
open Gofro.Agent (bail_if bail_if_eq_ok bind_eq_ok)

/-! ## Distinct routes -/

/-- `wg` keeps a route with one peer only. -/
def Distinct (I : Interface) : Prop := WireGuard.Apart (· = ·) I

theorem Distinct.set {I : Interface} (h : Distinct I) (key : String) (routes : List String) :
    Distinct (I.set key routes) := by
  have hold : ∀ p ∈ (I.set key routes).peers, p.1 ≠ key →
      ∃ rs, (p.1, rs) ∈ I.peers ∧ ∀ r ∈ p.2, r ∈ rs ∧ r ∉ routes := by
    intro p hp hk
    rcases WireGuard.Interface.mem_set.mp hp with rfl | ⟨-, rs, hp, hrs⟩
    · exact absurd rfl hk
    · exact ⟨rs, hp, fun r hr => by simpa [hrs] using hr⟩
  have hset : ∀ p ∈ (I.set key routes).peers, p.1 = key → p.2 = routes := by
    intro p hp hk
    rcases WireGuard.Interface.mem_set.mp hp with rfl | ⟨hne, -⟩
    · rfl
    · exact absurd hk hne
  rintro p hp q hq hne r hr _ hr' rfl
  by_cases hpk : p.1 = key
  · obtain ⟨rs, -, hall⟩ := hold q hq fun hqk => hne (hpk.trans hqk.symm)
    rw [hset p hp hpk] at hr
    exact (hall r hr').2 hr
  · obtain ⟨rs, hmem, hall⟩ := hold p hp hpk
    by_cases hqk : q.1 = key
    · rw [hset q hq hqk] at hr'
      exact (hall r hr).2 hr'
    · obtain ⟨rs', hmem', hall'⟩ := hold q hq hqk
      exact h _ hmem _ hmem' hne r (hall r hr).1 r (hall' r hr').1 rfl

theorem Distinct.remove {I : Interface} (h : Distinct I) (key : String) : Distinct (I.remove key) :=
  WireGuard.Apart.remove h key

theorem Distinct.take {I : Interface} (h : Distinct I) (n : ℕ) : Distinct (I.take n) :=
  WireGuard.Apart.take h n

theorem Distinct.applied {I : Interface} (h : Distinct I) (changes : List Change) :
    Distinct (applied changes I) := by
  induction changes generalizing I with
  | nil => exact h
  | cons change changes ih =>
    refine ih ?_
    cases change with
    | set key routes => exact h.set key routes
    | remove key => exact h.remove key

theorem Distinct.midway {I J : Interface} (h : Distinct I) {changes : List Change}
    (hm : Midway changes I J) : Distinct J := by
  cases hm with
  | forth n => exact h.applied _
  | back n => exact h.take n

/-- Live and saved. -/
structure DistinctRoutes (s : Vps) : Prop where
  live : Distinct s.live
  saved : Distinct s.saved

/-! ## Gentle changes -/

/-- The changes take no route from a peer that is no owner. -/
def Gentle (owners : List String) (I : Interface) (changes : List Change) : Prop :=
  ∀ key routes, Change.set key routes ∈ changes → ∀ q ∈ I.peers, q.1 ≠ key → q.1 ∉ owners →
    ∀ r ∈ routes, r ∉ q.2

section

variable {owners : List String} {I J : Interface} {changes : List Change} {key : String}
  {routes : List String}

theorem gentle_one (h : ∀ q ∈ I.peers, q.1 ≠ key → ∀ r ∈ routes, r ∉ q.2) :
    Gentle owners I [.set key routes] := by
  intro k rs hc q hq hk _ r hr
  rw [List.mem_singleton, Change.set.injEq] at hc
  obtain ⟨rfl, rfl⟩ := hc
  exact h q hq hk r hr

theorem gentle_remove : Gentle owners I [.remove key] := by
  intro k rs hc
  rw [List.mem_singleton] at hc
  cases hc

theorem gentle_nil : Gentle owners I [] := fun _ _ hc => nomatch hc

theorem Gentle.applied_owners (h : Gentle owners I changes)
    (howners : ∀ k rs, Change.set k rs ∈ changes → k ∈ owners) {p : String × List String}
    (hp : p ∈ (applied changes I).peers) (hk : p.1 ∉ owners) : p ∈ I.peers := by
  induction changes generalizing I with
  | nil => exact hp
  | cons change changes ih =>
    have hstep : ∀ q, q.1 ∉ owners → q ∈ (change.apply I).peers → q ∈ I.peers := by
      intro q hq hmem
      cases change with
      | set k rs =>
        have hne : q.1 ≠ k := fun he => hq (he ▸ howners k rs List.mem_cons_self)
        rcases WireGuard.Interface.mem_set.mp hmem with rfl | ⟨-, old, hold, hrs⟩
        · exact absurd rfl hne
        · have hall := h k rs List.mem_cons_self (q.1, old) hold hne hq
          have hsame : old.filter (· ∉ rs) = old := by
            apply List.filter_eq_self.mpr
            intro r hr
            rw [decide_eq_true_eq]
            exact fun hin => hall r hin hr
          rw [hsame] at hrs
          rwa [← hrs] at hold
      | remove k => exact (WireGuard.Interface.mem_remove.mp hmem).1
    refine hstep p hk (ih ?_ (fun k rs hc => howners k rs (List.mem_cons_of_mem _ hc)) hp)
    exact fun k rs hc q hq hne hn => h k rs (List.mem_cons_of_mem _ hc) q (hstep q hn hq) hne hn

theorem Gentle.one (h : Gentle owners I [.set key routes]) {p : String × List String}
    (hp : p ∈ (I.set key routes).peers) (hk : p.1 ∉ owners) :
    p = (key, routes) ∨ p.1 ≠ key ∧ p ∈ I.peers := by
  rcases WireGuard.Interface.mem_set.mp hp with rfl | ⟨hne, old, hold, hrs⟩
  · exact .inl rfl
  · have hall := h key routes (List.mem_singleton_self _) (p.1, old) hold hne hk
    have hsame : old.filter (· ∉ routes) = old := by
      apply List.filter_eq_self.mpr
      intro r hr
      rw [decide_eq_true_eq]
      exact fun hin => hall r hin hr
    rw [hsame] at hrs
    rw [← hrs] at hold
    exact .inr ⟨hne, hold⟩

/-- Anywhere on the way, a friend was one before or is the peer that is set. -/
theorem Gentle.midway_one (h : Gentle owners I [.set key routes])
    (hm : Midway [.set key routes] I J) {k ip : String} (hs : FriendShape J owners k ip) :
    FriendShape I owners k ip ∨ k = key ∧ classify_friend (fields routes) = .friend ip := by
  obtain ⟨hunowned, rs, hmem, hshape⟩ := hs
  have hback : ∀ n, (k, rs) ∈ (I.take n).peers → (k, rs) ∈ I.peers := fun n =>
    WireGuard.Interface.mem_of_mem_take
  cases hm with
  | back n => exact .inl ⟨hunowned, rs, hback n hmem, hshape⟩
  | forth n =>
    cases n with
    | zero => exact .inl ⟨hunowned, rs, hmem, hshape⟩
    | succ n =>
      rw [List.take_succ_cons, List.take_nil] at hmem
      rcases h.one hmem hunowned with he | ⟨-, hin⟩
      · obtain ⟨rfl, rfl⟩ := Prod.mk.inj he
        exact .inr ⟨rfl, hshape⟩
      · exact .inl ⟨hunowned, rs, hin, hshape⟩

/-- On the way through changes of owners, and through removals, nobody becomes a friend. -/
theorem Gentle.midway_owners (h : Gentle owners I changes)
    (howners : ∀ k rs, Change.set k rs ∈ changes → k ∈ owners) (hm : Midway changes I J)
    {k ip : String} (hs : FriendShape J owners k ip) : FriendShape I owners k ip := by
  obtain ⟨hunowned, rs, hmem, hshape⟩ := hs
  cases hm with
  | back n => exact ⟨hunowned, rs, WireGuard.Interface.mem_of_mem_take hmem, hshape⟩
  | forth n =>
    have hgentle : Gentle owners I (changes.take n) := fun k rs hc =>
      h k rs (List.mem_of_mem_take hc)
    exact ⟨hunowned, rs, hgentle.applied_owners (fun k rs hc =>
      howners k rs (List.mem_of_mem_take hc)) hmem hunowned, hshape⟩

theorem available_gentle {nets : List Net} (h : ensure_routes_available I key nets = .ok ())
    {q : String × List String} (hq : q ∈ I.peers) (hk : q.1 ≠ key) :
    ∀ r ∈ nets.map Net.toString, r ∉ q.2 := by
  intro r hr
  obtain ⟨net, -, rfl⟩ := List.mem_map.mp hr
  exact (available_disjoint h hq hk).ne hr (Net.ofString?_toString net)

theorem free_host_gentle {host : ℕ} (h : FreeHost I host) {q : String × List String}
    (hq : q ∈ I.peers) : ∀ r ∈ [(tunnel host).toString], r ∉ q.2 := by
  intro r hr hin
  rw [List.mem_singleton.mp hr] at hin
  have hc := h.free q hq _ (mem_networks hin (Net.ofString?_toString _))
  rw [contains_tunnel.mpr rfl] at hc
  cases hc

theorem warp_gentle {store : FriendStore} (hI : Distinct I) (h : warp_changes I store = .ok changes) :
    Gentle store.owners I changes := by
  intro key routes hc q hq hk _ r hr hin
  obtain ⟨⟨key', old⟩, hp, -, routes', hroute, he⟩ := mem_warp_changes h hc
  rw [Change.set.injEq] at he
  obtain ⟨rfl, rfl⟩ := he
  obtain ⟨host, hs⟩ := warp_route_eq_ok hroute
  rcases hs.mem hr with hold | rfl
  · have hin' : r ∈ old := by
      rw [fields] at hold
      split_ifs at hold with hnil
      · -- without routes there is no tunnel address
        have hnone : primaries ["(none)"] = [] := by decide +kernel
        have hprimary := hs.primary
        rw [fields, if_pos hnil, hnone] at hprimary
        cases hprimary
      · exact hold
    exact hI _ hp q hq hk.symm r hin' r hin rfl
  · exact @available_gentle _ _ [warp_source host] hs.available _ hq hk _
      (List.mem_singleton_self _) hin

end

theorem classify_tunnel {ip : String} {host : ℕ} (hlo : 2 ≤ host) (hhi : host ≤ 254)
    (h : classify_friend (fields [(tunnel host).toString]) = .friend ip) :
    ip = (tunnel host).toString := by
  obtain ⟨route, host', hroute, hv, -, -, rfl⟩ := classify_friend_eq.mp h
  rw [List.cons.injEq] at hroute
  rw [← hroute.1, validate_tunnel_ip_tunnel hlo hhi] at hv
  rw [Except.ok.inj hv]

/-! ## Names in changed metadata -/

section

variable {store : FriendStore} {public_key name ip : String}

theorem effective_name_of_find {record : FriendRecord}
    (h : store.records.find? (fun record => record.public_key = public_key) = some record) :
    effective_name store public_key ip = record.name := by
  rw [effective_name, h]

theorem effective_name_append {record : FriendRecord} (hne : public_key ≠ record.public_key) :
    effective_name { store with records := store.records ++ [record] } public_key ip =
      effective_name store public_key ip := by
  have hfind : (store.records ++ [record]).find? (fun r => r.public_key = public_key) =
      store.records.find? fun r => r.public_key = public_key := by
    rw [List.find?_append, List.find?_singleton, if_neg (by simpa using hne.symm), Option.or_none]
  rw [effective_name, effective_name, hfind]

theorem effective_name_append_self {record : FriendRecord}
    (h : has_record store record.public_key = false) :
    effective_name { store with records := store.records ++ [record] } record.public_key ip =
      record.name := by
  have hnone : store.records.find? (fun r => r.public_key = record.public_key) = none := by
    rw [List.find?_eq_none]
    intro r hr he
    rw [has_record, List.any_eq_false] at h
    exact h r hr he
  apply effective_name_of_find
  show (store.records ++ [record]).find? _ = _
  rw [List.find?_append, hnone, List.find?_singleton, if_pos (by simp), Option.none_or]

theorem find_set_name_ne {key : String} (hne : key ≠ public_key) (records : List FriendRecord) :
    (set_name public_key name records).find? (fun record => record.public_key = key) =
      records.find? fun record => record.public_key = key := by
  induction records with
  | nil => rfl
  | cons record records ih =>
    rw [set_name]
    split_ifs with hr
    · rw [List.find?_cons_of_neg (by simpa [hr] using hne.symm),
        List.find?_cons_of_neg (by simpa [hr] using hne.symm)]
    · simp only [List.find?_cons, ih]

theorem find_set_name_self {records : List FriendRecord}
    (h : ∃ record ∈ records, record.public_key = public_key) :
    ∃ record, (set_name public_key name records).find?
      (fun record => record.public_key = public_key) = some record ∧ record.name = name := by
  induction records with
  | nil =>
    obtain ⟨_, hr, -⟩ := h
    cases hr
  | cons record records ih =>
    rw [set_name]
    split_ifs with hr
    · exact ⟨{ record with name }, List.find?_cons_of_pos (by simpa using hr), rfl⟩
    · obtain ⟨r, hmem, he⟩ := h
      rcases List.mem_cons.mp hmem with rfl | hmem
      · exact absurd he hr
      · obtain ⟨found, hfound, hname⟩ := ih ⟨r, hmem, he⟩
        exact ⟨found, by rw [List.find?_cons_of_neg (by simpa using hr), hfound], hname⟩

theorem effective_name_named_ne {key : String} (hne : key ≠ public_key) :
    effective_name { store with records := named store public_key name } key ip =
      effective_name store key ip := by
  unfold named
  split_ifs
  · rw [effective_name, effective_name, find_set_name_ne hne]
  · exact effective_name_append hne

theorem effective_name_named :
    effective_name { store with records := named store public_key name } public_key ip = name := by
  unfold named
  split_ifs with hr
  · rw [has_record, List.any_eq_true] at hr
    obtain ⟨record, hmem, he⟩ := hr
    obtain ⟨found, hfound, hname⟩ := find_set_name_self ⟨record, hmem, of_decide_eq_true he⟩
    rw [effective_name, hfound]
    exact hname
  · exact @effective_name_append_self _ _ ⟨public_key, name, none⟩
      (Bool.eq_false_of_not_eq_true hr)

theorem effective_name_recorded {key current : String}
    (hip : key = public_key → current = ip) :
    effective_name { store with records := recorded store public_key ip } key current =
      effective_name store key current := by
  unfold recorded
  split_ifs with hr
  · rfl
  · by_cases he : key = public_key
    · subst he
      rw [@effective_name_append_self _ _ ⟨key, ip, none⟩ (Bool.eq_false_of_not_eq_true hr),
        hip rfl, effective_name]
      have hnone : store.records.find? (fun r => r.public_key = key) = none := by
        rw [List.find?_eq_none]
        rw [has_record, List.any_eq_true, not_exists] at hr
        exact fun r hmem he => hr r ⟨hmem, he⟩
      rw [hnone]
    · exact effective_name_append he

end

/-! ## Names -/

section

variable [Platform]

/-- No two live friends go by the same name, in lower case. -/
def Unique (live : Interface) (store : FriendStore) : Prop :=
  ∀ key ip key' ip', (key, PeerKind.friend ip) ∈ peers live store.owners →
    (key', PeerKind.friend ip') ∈ peers live store.owners → key ≠ key' →
      to_lowercase (effective_name store key ip) ≠ to_lowercase (effective_name store key' ip')

/-- **What would hold of every state** whose metadata can be loaded. -/
def Names (s : Vps) : Prop := ∀ store, read_store s.metadata = .ok store → Unique s.live store

/-- The name that a peer would go by is no other live friend's. -/
def Clear (s : Vps) (public_key ip : String) : Prop :=
  ∀ store, read_store s.metadata = .ok store → public_key ∉ store.owners →
    ∀ key ip', (key, PeerKind.friend ip') ∈ peers s.live store.owners → key ≠ public_key →
      to_lowercase (effective_name store key ip') ≠
        to_lowercase (effective_name store public_key ip)

variable {store : FriendStore} {live : Interface} {name ip : String}

theorem Unique.congr {next : FriendStore} {J : Interface} (h : Unique live store)
    (hshape : ∀ key ip, FriendShape J next.owners key ip → FriendShape live store.owners key ip)
    (hname : ∀ key ip, FriendShape live store.owners key ip →
      effective_name next key ip = effective_name store key ip) : Unique J next := by
  intro key ip key' ip' hk hk' hne
  have hs := hshape key ip (mem_peers_friend.mp hk)
  have hs' := hshape key' ip' (mem_peers_friend.mp hk')
  rw [hname _ _ hs, hname _ _ hs']
  exact h key ip key' ip' (mem_peers_friend.mpr hs) (mem_peers_friend.mpr hs') hne

theorem Unique.named {next : FriendStore} {J : Interface} (h : Unique live store)
    (public_key name : String)
    (hshape : ∀ key ip, FriendShape J next.owners key ip → key ≠ public_key →
      FriendShape live store.owners key ip)
    (hname : ∀ key ip, key ≠ public_key → effective_name next key ip = effective_name store key ip)
    (hown : ∀ ip, FriendShape J next.owners public_key ip → effective_name next public_key ip = name)
    (hfree : ∀ key ip, FriendShape live store.owners key ip → key ≠ public_key →
      to_lowercase (effective_name store key ip) ≠ to_lowercase name) : Unique J next := by
  have hother : ∀ key ip, FriendShape J next.owners key ip → key ≠ public_key →
      to_lowercase (effective_name next key ip) ≠ to_lowercase name := by
    intro key ip hs hne
    rw [hname key ip hne]
    exact hfree key ip (hshape key ip hs hne) hne
  intro key ip key' ip' hk hk' hne
  rw [mem_peers_friend] at hk hk'
  by_cases he : key = public_key
  · subst he
    rw [hown ip hk]
    exact (hother key' ip' hk' hne.symm).symm
  · by_cases he' : key' = public_key
    · subst he'
      rw [hown ip' hk']
      exact hother key ip hk he
    · rw [hname _ _ he, hname _ _ he']
      exact h key ip key' ip' (mem_peers_friend.mpr (hshape _ _ hk he))
        (mem_peers_friend.mpr (hshape _ _ hk' he')) hne

theorem active_name_eq_false {current : Option String}
    (h : active_name store (peers live store.owners) current name = false) {key : String}
    (hs : FriendShape live store.owners key ip) (hne : some key ≠ current) :
    to_lowercase (effective_name store key ip) ≠ to_lowercase name := by
  rw [active_name, List.any_eq_false] at h
  have hk := h _ (mem_peers_friend.mpr hs)
  simpa [hne] using hk

/-! ## Plans -/

section

variable {interface : String} {added : Option String} {legacy : Vps → String → String → Prop}
  {created : String → FriendStore → Prop} {s s' : Vps} {plan : Plan}

theorem Planned.read_written (h : Planned interface added legacy created s plan)
    (hnew : ∀ private_key store, created private_key store → NewKey private_key store)
    {next : FriendStore} (hn : plan.next = some next) {metadata : Option String}
    (hw : Written plan.next s.metadata metadata) : read_store metadata = .ok next := by
  rw [hn] at hw
  obtain ⟨data, hdata, rfl⟩ := hw
  exact read_store_encode (h.next_schema hn) (h.next_valid hnew hn) hdata

/-- **Names on the way through a plan.** -/
theorem Planned.names (h : Planned interface added legacy created s plan) (hd : Distinct s.live)
    (hnames : Names s)
    (hnew : ∀ private_key store, created private_key store → NewKey private_key store)
    (hclear : ∀ key ip, legacy s key ip → Clear s key ip) {J saved : Interface}
    {metadata : Option String} (hw : Written plan.next s.metadata metadata)
    (hm : Midway plan.changes s.live J) : Names { s with live := J, saved, metadata } := by
  have hplan := h
  intro store' hread
  cases h with
  | @friend store name private_key host loaded _ _ _ unique free generated =>
    have hkey := hnew _ _ generated
    cases Except.ok.inj (hread.symm.trans (hplan.read_written hnew rfl hw))
    have hgentle : Gentle store.owners s.live
        [.set (pubkey private_key) [(tunnel host).toString]] :=
      gentle_one fun q hq _ => free_host_gentle free hq
    refine (hnames store loaded.read).named (pubkey private_key) name ?_ ?_ ?_ ?_
    · intro key ip hs hne
      exact (hgentle.midway_one hm hs).resolve_right fun he => hne he.1
    · exact fun key ip hne => effective_name_append hne
    · exact fun ip _ => @effective_name_append_self _ _
        ⟨pubkey private_key, name, some private_key⟩ hkey.unrecorded
    · exact fun key ip hs _ => active_name_eq_false unique hs (Option.some_ne_none _)
  | @renamed store public_key name ip loaded _ _ unique =>
    cases Except.ok.inj (hread.symm.trans (hplan.read_written hnew rfl hw))
    have hshape : ∀ key ip, FriendShape J store.owners key ip →
        FriendShape s.live store.owners key ip := fun key ip hs =>
      gentle_nil.midway_owners (fun _ _ hc => nomatch hc) hm hs
    refine (hnames store loaded.read).named public_key name (fun key ip hs _ => hshape key ip hs)
      (fun key ip hne => effective_name_named_ne hne) (fun ip _ => effective_name_named) ?_
    exact fun key ip hs hne => active_name_eq_false unique hs fun he => hne (Option.some.inj he)
  | @revoked store public_key ip loaded shape =>
    cases Except.ok.inj (hread.symm.trans (hplan.read_written hnew rfl hw))
    obtain ⟨-, -, hshape⟩ := peer_shape_ok shape
    refine (hnames store loaded.read).congr (fun key ip hs => ?_) fun key current hs => ?_
    · refine gentle_remove.midway_owners (fun _ _ hc => ?_) hm hs
      rw [List.mem_singleton] at hc
      cases hc
    · refine effective_name_recorded ?_
      rintro rfl
      obtain ⟨routes, hp, hk⟩ := hshape.shape
      obtain ⟨routes', hp', hk'⟩ := hs.shape
      rw [WireGuard.Interface.routes_unique hp hp', hk'] at hk
      exact PeerKind.friend.inj hk
  | @owner store public_key host routes loaded _ _ low high assigned available =>
    cases Except.ok.inj (hread.symm.trans (hplan.read_written hnew rfl hw))
    have hgentle : Gentle store.owners s.live [.set public_key (routes.map Net.toString)] :=
      gentle_one fun q hq hk => available_gentle available hq hk
    refine (hnames store loaded.read).congr (fun key ip hs => ?_) fun _ _ _ => rfl
    have hsub : key ∉ store.owners := fun ho => hs.unowned (subset_with_owner ho)
    refine (hgentle.midway_one hm ⟨hsub, hs.shape⟩).resolve_right fun he => ?_
    exact hs.unowned (he.1 ▸ mem_with_owner)
  | @warp store changes loaded routes =>
    cases hw
    cases Except.ok.inj (hread.symm.trans loaded.read)
    refine (hnames _ loaded.read).congr (fun key ip hs => ?_) fun _ _ _ => rfl
    refine (warp_gentle hd routes).midway_owners (fun k rs hc => ?_) hm hs
    obtain ⟨p, -, ho, _, -, he⟩ := mem_warp_changes routes hc
    rw [Change.set.injEq] at he
    exact he.1 ▸ ho
  | @owner_removed store public_key loaded =>
    cases hw
    cases Except.ok.inj (hread.symm.trans loaded.read)
    refine (hnames _ loaded.read).congr (fun key ip hs => ?_) fun _ _ _ => rfl
    refine gentle_remove.midway_owners (fun _ _ hc => ?_) hm hs
    rw [List.mem_singleton] at hc
    cases hc
  | @peer public_key host _ hpeer _ low high available =>
    cases hw
    have hunique := hnames store' hread
    have hgentle : Gentle store'.owners s.live [.set public_key [(tunnel host).toString]] :=
      gentle_one fun q hq hk => @available_gentle _ _ [tunnel host] available _ hq hk
    have hother : ∀ key ip, FriendShape J store'.owners key ip → key ≠ public_key →
        FriendShape s.live store'.owners key ip := fun key ip hs hne =>
      (hgentle.midway_one hm hs).resolve_right fun he => hne he.1
    by_cases hself : ∀ ip, FriendShape J store'.owners public_key ip →
        FriendShape s.live store'.owners public_key ip
    · refine hunique.congr (fun key ip hs => ?_) fun _ _ _ => rfl
      by_cases hne : key = public_key
      · exact hne ▸ hself ip (hne ▸ hs)
      · exact hother key ip hs hne
    · -- the peer goes by its record or by its new address
      rw [not_forall] at hself
      obtain ⟨ip, hself⟩ := hself
      rw [Classical.not_imp] at hself
      obtain ⟨hs, hnot⟩ := hself
      have hip := classify_tunnel low high ((hgentle.midway_one hm hs).resolve_left hnot).2
      refine hunique.named public_key (effective_name store' public_key ip) hother
        (fun _ _ _ => rfl) (fun current hcurrent => ?_) fun key ip' hfriend hne => ?_
      · obtain ⟨routes, hp, hk⟩ := hs.shape
        obtain ⟨routes', hp', hk'⟩ := hcurrent.shape
        rw [WireGuard.Interface.routes_unique hp hp', hk'] at hk
        rw [PeerKind.friend.inj hk]
      · rw [hip]
        exact hclear public_key _ hpeer store' hread hs.unowned key ip'
          (mem_peers_friend.mpr hfriend) hne
  | peer_removed =>
    cases hw
    refine (hnames store' hread).congr (fun key ip hs => ?_) fun _ _ _ => rfl
    refine gentle_remove.midway_owners (fun _ _ hc => ?_) hm hs
    rw [List.mem_singleton] at hc
    cases hc

theorem Names.take (h : Names s) (n : ℕ) : Names { s with live := s.live.take n } := by
  intro store hread
  refine (h store hread).congr (fun key ip hs => ?_) fun _ _ _ => rfl
  exact gentle_nil.midway_owners (fun _ _ hc => absurd hc List.not_mem_nil) (.back n) hs

theorem Names.migrated {missing : Bool} {old store : FriendStore} {data : String} (hnames : Names s)
    (hread : read_store s.metadata = .ok old) (hm : Migrated missing s.live old store)
    (hd : encode_store store = .ok data) (hone : old.schema = 1) : Names (publish data s) := by
  intro store' hread'
  have hvalid := hm.valid (read_store_valid hread)
  cases Except.ok.inj (hread'.symm.trans (read_store_encode hm.schema hvalid hd))
  have hnone : old.owners = [] := by
    refine ((read_store_schema hread).resolve_right ?_).2
    omega
  refine (hnames old hread).congr (fun key ip hs => ?_) fun key ip _ => ?_
  · refine ⟨?_, hs.shape⟩
    rw [hnone]
    exact List.not_mem_nil
  · rw [effective_name, effective_name, hm.records]

/-- Names and distinct routes. -/
structure Named (s : Vps) : Prop where
  names : Names s
  distinct : DistinctRoutes s

theorem Named.moved (h : Named s) (hp : Planned interface added legacy created s plan)
    (hnew : ∀ private_key store, created private_key store → NewKey private_key store)
    (hclear : ∀ key ip, legacy s key ip → Clear s key ip) (hm : Moved plan s s') : Named s' := by
  cases hm with
  | untouched => exact h
  | @midway live saved metadata hw hl hs =>
    refine ⟨hp.names h.distinct.live h.names hnew hclear hw hl, h.distinct.live.midway hl, ?_⟩
    show Distinct saved
    rcases hs with rfl | rfl | rfl
    · exact h.distinct.saved
    · exact h.distinct.live
    · exact h.distinct.live.applied _
  | @undone store data hu hd =>
    have hload := hp.undo hu
    refine ⟨fun store' hread => ?_, h.distinct.live, h.distinct.live⟩
    have hback := read_store_encode hload.schema (read_store_valid hload.read) hd
    cases Except.ok.inj (hread.symm.trans hback)
    exact h.names _ hload.read

theorem Named.shift (h : Named s)
    (hnew : ∀ private_key store, created private_key store → NewKey private_key store)
    (hclear : ∀ s key ip, legacy s key ip → Clear s key ip)
    (hs : Shift interface added legacy created s s') : Named s' := by
  cases hs with
  | migrated read schema migrated encoded =>
    exact ⟨h.names.migrated read (migrate_eq_ok migrated) encoded schema, h.distinct.live,
      h.distinct.saved⟩
  | planned hp hm => exact h.moved hp hnew (hclear s) hm
  | saved => exact ⟨h.names, h.distinct.live, h.distinct.live⟩
  | halted => exact ⟨h.names.take _, h.distinct.live.take _, h.distinct.saved⟩
  | warp => exact ⟨h.names, h.distinct.live, h.distinct.saved⟩

theorem Named.shifts (h : Named s)
    (hnew : ∀ private_key store, created private_key store → NewKey private_key store)
    (hclear : ∀ s key ip, legacy s key ip → Clear s key ip)
    (hs : Shifts interface added legacy created s s') : Named s' := by
  induction hs with
  | refl => exact h
  | tail _ hstep ih => exact ih.shift hnew hclear hstep

end

/-! ## Runs of commands -/

variable (interface : String)

/-- A command, and how its steps end. -/
def Command.step (s : Vps) (command : Command × Faults) : Vps :=
  ((dispatch interface command.2 command.1).exec s).2

/-- A created friend gets an unused key, and a peer that is added without metadata a name that is
free. -/
structure Command.Free (s : Vps) (command : Command × Faults) : Prop where
  fresh : ∀ endpoint input private_key, command.1 = .create_friend endpoint input private_key →
    Unused s private_key
  clear : ∀ key ip, command.1.peer s = some (key, ip) → Clear s key ip

variable {interface}

theorem Named.step {s : Vps} {command : Command × Faults} (h : Named s)
    (hfree : Command.Free s command) : Named (Command.step interface s command) := by
  refine h.shifts ?_ ?_ (dispatch_shifts command.1)
  · rintro private_key store ⟨⟨endpoint, input, he⟩, hd⟩
    exact (hfree.fresh endpoint input private_key he).new_key hd
  · rintro s' key ip ⟨rfl, hpeer⟩
    exact hfree.clear key ip hpeer

/-- **Names stay unique** in every run of commands where the peers that are added without metadata
have names that are free. -/
theorem names_unique (interface : String) (s : Vps) (commands : List (Command × Faults))
    (hnames : Names s) (hdistinct : DistinctRoutes s)
    (hfree : Along (Command.step interface) Command.Free s commands) :
    Names (run (Command.step interface) s commands) :=
  have h : Named (run (Command.step interface) s commands) :=
    hfree.invariant (fun _ _ hf h => h.step hf) ⟨hnames, hdistinct⟩
  h.names

end

/-! ## A collision -/

def sample_store : FriendStore := ⟨2, [⟨BOB, "Bob", none⟩], [ROUTER]⟩

def collided_store : FriendStore := ⟨2, [⟨BOB, "10.202.0.7/32", none⟩], [ROUTER]⟩

theorem names_sample : letI := sample_platform
    Names sample := by
  intro store hread
  have hstore : read_store sample.metadata = .ok sample_store := by decide +kernel
  cases Except.ok.inj (hread.symm.trans hstore)
  have hpeers : peers sample.live sample_store.owners =
      [(ROUTER, .owner), (BOB, .friend "10.202.0.3/32")] := by decide +kernel
  intro key ip key' ip' hk hk' hne
  rw [hpeers] at hk hk'
  simp only [List.mem_cons, Prod.mk.injEq, reduceCtorEq, and_false, false_or, List.not_mem_nil,
    or_false] at hk hk'
  exact absurd (hk.1.trans hk'.1.symm) hne

theorem distinct_sample : DistinctRoutes sample := by
  have hdistinct : Distinct sample_peers := by
    unfold Distinct WireGuard.Apart
    decide +kernel
  exact ⟨hdistinct, hdistinct⟩

/-- **Names may collide**: Bob takes an address as his name, and a peer is added there. -/
theorem names_collide : letI := sample_platform
    Names sample ∧ DistinctRoutes sample ∧ ¬ Names (run (Command.step "gt0") sample
      [(.rename_friend BOB "\x7b\"name\":\"10.202.0.7/32\"\x7d", Faults.none),
        (.add_peer CAROL "10.202.0.7/32" none, Faults.none)]) := by
  let _ := sample_platform
  refine ⟨names_sample, distinct_sample, fun h => ?_⟩
  have hne := h collided_store (by decide +kernel) CAROL "10.202.0.7/32" BOB "10.202.0.3/32"
    (by decide +kernel) (by decide +kernel) (by decide)
  exact hne (by decide +kernel)

/-- The same peer at an address that is nobody's name. -/
theorem names_unique_sample : letI := sample_platform
    Names (run (Command.step "gt0") sample [(.add_peer CAROL "10.202.0.7/32" none, Faults.none)]) := by
  let _ := sample_platform
  refine names_unique "gt0" sample _ names_sample distinct_sample ⟨⟨?_, ?_⟩, trivial⟩
  · rintro _ _ _ ⟨⟩
  · intro key ip hpeer store hread _ key' ip' hk hne
    have hstore : read_store sample.metadata = .ok sample_store := by decide +kernel
    cases Except.ok.inj (hread.symm.trans hstore)
    have hadded : (Command.add_peer CAROL "10.202.0.7/32" none).peer sample =
        some (CAROL, "10.202.0.7/32") := by decide +kernel
    cases Option.some.inj (hpeer.symm.trans hadded)
    have hpeers : peers sample.live sample_store.owners =
        [(ROUTER, .owner), (BOB, .friend "10.202.0.3/32")] := by decide +kernel
    rw [hpeers] at hk
    simp only [List.mem_cons, Prod.mk.injEq, reduceCtorEq, and_false, false_or, List.not_mem_nil,
      or_false] at hk
    obtain ⟨rfl, hip⟩ := hk
    cases hip
    decide +kernel

end Gofro.Server

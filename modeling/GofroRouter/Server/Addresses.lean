import GofroRouter.Server.Revoked

/-!
# Addresses never overlap

Each peer's routes are apart from every other peer's, in the live interface and in the saved one,
and a WARP source address belongs to the recorded owner with that tunnel address.

* `Separate`, `Held`: what is kept, as `Assigned` in one. `Free`: changes that keep it.
* `Free.midway`: anywhere on the way through free changes. `Planned.free`: the changes of every plan
  are free.
* **`addresses_assigned`**: in every run.
-/

namespace Gofro.Server

open Fallible
open Ipv4 (Net)
open WireGuard (Apart)
open Platform (pubkey)
open Gofro.Agent (bail_if bail_if_eq_ok bind_eq_ok)

/-- Networks that share an address. Routes that are no IPv4 networks are compared by `other`. -/
def Overlap (other : String → String → Prop) (route route' : String) : Prop :=
  match Net.ofString? route, Net.ofString? route' with
  | some n, some n' => ∃ ip, n.contains ip = true ∧ n'.contains ip = true
  | none, none => other route route'
  | _, _ => False

/-- One of the routes covers the address. -/
def Holds (routes : List String) (ip : Ipv4.Addr) : Prop :=
  ∃ route ∈ routes, ∃ n, Net.ofString? route = some n ∧ n.contains ip = true

/-- The tunnel addresses among the routes. -/
def primaries (routes : List String) : List Net :=
  routes.filterMap fun route => (validate_tunnel_ip route).toOption

/-- A WARP source address is covered by the routes of its owner only. -/
def Aliased (owners : List String) (I : Interface) : Prop :=
  ∀ p ∈ I.peers, ∀ host, 2 ≤ host → host ≤ 254 → Holds p.2 (warp_source host).addr →
    p.1 ∈ owners ∧ primaries p.2 = [tunnel host]

/-- The owners that the metadata lists. -/
def recorded_owners : Option String → List String
  | none => []
  | some data =>
    match parse_store data with
    | .ok store => store.owners
    | .error _ => []

/-- No overlaps, live or saved. -/
structure Separate (other : String → String → Prop) (s : Vps) : Prop where
  live : Apart (Overlap other) s.live
  saved : Apart (Overlap other) s.saved

/-- WARP sources are held by their owners, live or saved. -/
structure Held (s : Vps) : Prop where
  live : Aliased (recorded_owners s.metadata) s.live
  saved : Aliased (recorded_owners s.metadata) s.saved

section

variable (other : String → String → Prop) (held : Prop)

/-- An interface without overlaps, where WARP sources are held by their owners if `held`. -/
structure Good (owners : List String) (I : Interface) : Prop where
  apart : Apart (Overlap other) I
  aliased : held → Aliased owners I

/-- **What every operation keeps.** -/
structure Assigned (s : Vps) : Prop where
  live : Good other held (recorded_owners s.metadata) s.live
  saved : Good other held (recorded_owners s.metadata) s.saved

end

/-! ## Free changes -/

/-- Routes that share no address. -/
def Unshared (routes routes' : List String) : Prop :=
  ∀ route ∈ routes, ∀ route' ∈ routes', ∀ n n', Net.ofString? route = some n →
    Net.ofString? route' = some n' → ∀ ip, ¬ (n.contains ip = true ∧ n'.contains ip = true)

theorem Unshared.symm {routes routes' : List String} (h : Unshared routes routes') :
    Unshared routes' routes := fun r hr r' hr' n n' hn hn' ip hip =>
  h r' hr' r hr n' n hn' hn ip hip.symm

/-- Routes for a peer that do not touch anyone else's. -/
structure FreeRoutes (owners : List String) (I : Interface) (key : String) (routes : List String) :
    Prop where
  networks : ∀ route ∈ routes, ∃ n, Net.ofString? route = some n
  disjoint : ∀ p ∈ I.peers, p.1 ≠ key → Unshared routes p.2
  aliased : ∀ host, 2 ≤ host → host ≤ 254 → Holds routes (warp_source host).addr →
    key ∈ owners ∧ primaries routes = [tunnel host]

/-- Changes that touch neither other peers nor each other. -/
structure Free (owners : List String) (I : Interface) (changes : List Change) : Prop where
  routes : ∀ key routes, Change.set key routes ∈ changes → FreeRoutes owners I key routes
  pairs : ∀ key routes key' routes', Change.set key routes ∈ changes →
    Change.set key' routes' ∈ changes → key ≠ key' → Unshared routes routes'

section

variable {other : String → String → Prop} {held : Prop} {owners owners' : List String} {I J : Interface}
  {key : String} {routes : List String} {changes : List Change}

theorem Good.mono (h : Good other held owners I) (ho : owners ⊆ owners') : Good other held owners' I :=
  ⟨h.apart, fun hheld p hp host hlo hhi hh => ⟨ho (h.aliased hheld p hp host hlo hhi hh).1,
    (h.aliased hheld p hp host hlo hhi hh).2⟩⟩

theorem Good.take (h : Good other held owners I) (n : ℕ) : Good other held owners (I.take n) :=
  ⟨h.apart.take n, fun hheld p hp => h.aliased hheld p (WireGuard.Interface.mem_of_mem_take hp)⟩

theorem Good.remove (h : Good other held owners I) (key : String) : Good other held owners (I.remove key) :=
  ⟨h.apart.remove key,
    fun hheld p hp => h.aliased hheld p (WireGuard.Interface.mem_remove.mp hp).1⟩

theorem Unshared.ne {routes routes' : List String} (h : Unshared routes routes') {route : String}
    (hr : route ∈ routes) {n : Net} (hn : Net.ofString? route = some n) : route ∉ routes' :=
  fun hr' => h route hr route hr' n n hn hn n.addr ⟨n.contains_addr, n.contains_addr⟩

theorem FreeRoutes.mem_set (h : FreeRoutes owners I key routes) {p : String × List String} :
    p ∈ (I.set key routes).peers ↔ p = (key, routes) ∨ p.1 ≠ key ∧ p ∈ I.peers := by
  refine WireGuard.Interface.mem_set_of_free fun q hq hk r hr => ?_
  obtain ⟨n, hn⟩ := h.networks r hr
  exact (h.disjoint q hq hk).ne hr hn

theorem Unshared.overlap {routes' : List String} (h : Unshared routes routes') {route route' : String}
    (hr : route ∈ routes) (hr' : route' ∈ routes') {n : Net} (hn : Net.ofString? route = some n) :
    ¬ Overlap other route route' ∧ ¬ Overlap other route' route := by
  unfold Overlap
  rw [hn]
  cases hn' : Net.ofString? route' with
  | none => exact ⟨not_false, not_false⟩
  | some n' =>
    exact ⟨fun ⟨ip, hip⟩ => h route hr route' hr' n n' hn hn' ip hip,
      fun ⟨ip, hip⟩ => h route hr route' hr' n n' hn hn' ip hip.symm⟩

/-- **A free change** keeps an interface good. -/
theorem FreeRoutes.good (h : FreeRoutes owners I key routes) (hI : Good other held owners I) :
    Good other held owners (I.set key routes) where
  apart := by
    refine hI.apart.set fun p hp hk r hr r' hr' => ?_
    obtain ⟨n, hn⟩ := h.networks r hr
    exact (h.disjoint p hp hk).overlap hr hr' hn
  aliased := by
    intro hheld p hp host hlo hhi hh
    rcases h.mem_set.mp hp with rfl | ⟨-, hp⟩
    · exact h.aliased host hlo hhi hh
    · exact hI.aliased hheld p hp host hlo hhi hh

theorem Free.tail {change : Change} (h : Free owners I (change :: changes)) :
    Free owners (change.apply I) changes where
  routes := by
    intro key routes hmem
    have hfree := h.routes key routes (List.mem_cons_of_mem _ hmem)
    refine ⟨hfree.networks, fun p hp hk => ?_, hfree.aliased⟩
    cases change with
    | set key' routes' =>
      rcases (h.routes key' routes' List.mem_cons_self).mem_set.mp hp with rfl | ⟨-, hp⟩
      · exact h.pairs _ _ _ _ (List.mem_cons_of_mem _ hmem) List.mem_cons_self fun he => hk he.symm
      · exact hfree.disjoint p hp hk
    | remove key' => exact hfree.disjoint p (WireGuard.Interface.mem_remove.mp hp).1 hk
  pairs := fun _ _ _ _ hm hm' => h.pairs _ _ _ _ (List.mem_cons_of_mem _ hm)
    (List.mem_cons_of_mem _ hm')

theorem Free.applied (h : Free owners I changes) (hI : Good other held owners I) :
    Good other held owners (applied changes I) := by
  induction changes generalizing I with
  | nil => exact hI
  | cons change changes ih =>
    refine ih h.tail ?_
    cases change with
    | set key routes => exact (h.routes key routes List.mem_cons_self).good hI
    | remove key => exact hI.remove key

/-- **Anywhere on the way through free changes**, and back. -/
theorem Free.midway (h : Free owners I changes) (hI : Good other held owners I)
    (hm : Midway changes I J) : Good other held owners J := by
  cases hm with
  | forth n =>
    have htake : Free owners I (changes.take n) :=
      ⟨fun key routes hc => h.routes key routes (List.mem_of_mem_take hc),
        fun _ _ _ _ hc hc' => h.pairs _ _ _ _ (List.mem_of_mem_take hc) (List.mem_of_mem_take hc')⟩
    exact htake.applied hI
  | back n => exact hI.take n

theorem FreeRoutes.free (h : FreeRoutes owners I key routes) : Free owners I [.set key routes] := by
  have hone : ∀ k rs, Change.set k rs ∈ [Change.set key routes] → k = key ∧ rs = routes := by
    intro k rs hm
    rw [List.mem_singleton, Change.set.injEq] at hm
    exact hm
  constructor
  · intro k rs hm
    obtain ⟨rfl, rfl⟩ := hone k rs hm
    exact h
  · intro k rs k' rs' hm hm' hne
    exact absurd ((hone k rs hm).1.trans (hone k' rs' hm').1.symm) hne

theorem free_remove : Free owners I [.remove key] :=
  ⟨fun _ _ hm => (nomatch List.mem_singleton.mp hm), fun _ _ _ _ hm => nomatch List.mem_singleton.mp hm⟩

theorem free_nil : Free owners I [] := ⟨fun _ _ hm => (nomatch hm), fun _ _ _ _ hm => nomatch hm⟩

end

/-! ## Assigned routes -/

section

variable {owners : List String} {I : Interface} {key : String} {host : ℕ}

theorem contains_tunnel {ip : Ipv4.Addr} :
    (tunnel host).contains ip = true ↔ ip = (tunnel host).addr := contains_single rfl

theorem contains_warp_source {ip : Ipv4.Addr} :
    (warp_source host).contains ip = true ↔ ip = (warp_source host).addr := contains_single rfl

theorem tunnel_ne_source {host' : ℕ} (h : host ≤ 254) (h' : host' ≤ 254) :
    (warp_source host').addr ≠ (tunnel host).addr := by
  intro he
  have hn := congrArg BitVec.toNat he
  rw [warp_source_toNat h', tunnel_toNat h] at hn
  omega

theorem warp_source_inj {host' : ℕ} (h : host ≤ 254) (h' : host' ≤ 254)
    (he : (warp_source host').addr = (warp_source host).addr) : host' = host := by
  have hn := congrArg BitVec.toNat he
  rw [warp_source_toNat h', warp_source_toNat h] at hn
  omega

theorem validate_warp_source (h : host ≤ 254) :
    (validate_tunnel_ip (warp_source host).toString).toOption = none := by
  cases hv : validate_tunnel_ip (warp_source host).toString with
  | error e => rfl
  | ok network =>
    obtain ⟨hn, host', hlo', hhi', rfl⟩ := validate_tunnel_ip_eq_ok.mp hv
    rw [Net.ofString?_toString, Option.some.injEq] at hn
    exact absurd (congrArg Net.addr hn) (tunnel_ne_source hhi' h)

theorem validate_tunnel (hlo : 2 ≤ host) (hhi : host ≤ 254) :
    (validate_tunnel_ip (tunnel host).toString).toOption = some (tunnel host) := by
  rw [validate_tunnel_ip_tunnel hlo hhi]
  rfl

/-- **A tunnel address that nobody covers** may be given to any peer. -/
theorem freeRoutes_tunnel (hhi : host ≤ 254)
    (hfree : ∀ p ∈ I.peers, p.1 ≠ key → ∀ n ∈ networks p.2, n.contains (tunnel host).addr = false) :
    FreeRoutes owners I key [(tunnel host).toString] where
  networks := by
    intro route hr
    rw [List.mem_singleton.mp hr]
    exact ⟨_, Net.ofString?_toString _⟩
  disjoint := by
    intro p hp hk route hr route' hr' n n' hn hn' ip hip
    rw [List.mem_singleton.mp hr, Net.ofString?_toString, Option.some.injEq] at hn
    subst hn
    rw [contains_tunnel] at hip
    obtain ⟨rfl, hc⟩ := hip
    rw [hfree p hp hk n' (mem_networks hr' hn')] at hc
    cases hc
  aliased := by
    rintro host' hlo' hhi' ⟨route, hr, n, hn, hc⟩
    rw [List.mem_singleton.mp hr, Net.ofString?_toString, Option.some.injEq] at hn
    subst hn
    exact absurd (contains_tunnel.mp hc) (tunnel_ne_source hhi hhi')

theorem available_disjoint {nets : List Net} (h : ensure_routes_available I key nets = .ok ())
    {p : String × List String} (hp : p ∈ I.peers) (hk : p.1 ≠ key) :
    Unshared (nets.map Net.toString) p.2 := by
  intro route hr route' hr' n n' hn hn' ip hip
  obtain ⟨net, hnet, rfl⟩ := List.mem_map.mp hr
  rw [Net.ofString?_toString, Option.some.injEq] at hn
  subst hn
  exact routes_conflict_eq_false (bail_if_eq_ok.mp h) p hp hk n' (mem_networks hr' hn') net hnet ip
    hip.symm

theorem apart_of_available {other : String → String → Prop}
    (h : ∀ p ∈ I.peers, p.2 = (networks p.2).map Net.toString ∧
      ensure_routes_available I p.1 (networks p.2) = .ok ()) : Apart (Overlap other) I := by
  intro p hp q hq hk route hr route' hr'
  obtain ⟨hnets, havail⟩ := h p hp
  have hu : Unshared p.2 q.2 := hnets ▸ available_disjoint havail hq hk.symm
  rw [hnets] at hr
  obtain ⟨n, -, rfl⟩ := List.mem_map.mp hr
  rw [hnets] at hu
  exact (hu.overlap hr hr' (Net.ofString?_toString n)).1

theorem freeRoutes_available {nets : List Net} (h : ensure_routes_available I key nets = .ok ())
    (haliased : ∀ host', 2 ≤ host' → host' ≤ 254 →
      Holds (nets.map Net.toString) (warp_source host').addr →
      key ∈ owners ∧ primaries (nets.map Net.toString) = [tunnel host']) :
    FreeRoutes owners I key (nets.map Net.toString) where
  networks := by
    intro route hr
    obtain ⟨net, -, rfl⟩ := List.mem_map.mp hr
    exact ⟨net, Net.ofString?_toString net⟩
  disjoint := fun _ hp hk => available_disjoint h hp hk
  aliased := haliased

theorem holds_map {nets : List Net} {ip : Ipv4.Addr} :
    Holds (nets.map Net.toString) ip ↔ ∃ n ∈ nets, n.contains ip = true := by
  constructor
  · rintro ⟨route, hr, n, hn, hc⟩
    obtain ⟨net, hnet, rfl⟩ := List.mem_map.mp hr
    rw [Net.ofString?_toString, Option.some.injEq] at hn
    exact ⟨net, hnet, hn ▸ hc⟩
  · rintro ⟨n, hn, hc⟩
    exact ⟨n.toString, List.mem_map.mpr ⟨n, hn, rfl⟩, n, Net.ofString?_toString n, hc⟩

theorem owner_routes_cases {interface : String} {warp : Option String} {nets : List Net}
    (hlo : 2 ≤ host) (hhi : host ≤ 254)
    (h : owner_routes interface warp (tunnel host) = .ok nets) :
    nets = [tunnel host] ∨ nets = [tunnel host, warp_source host] := by
  simp only [owner_routes, bind_eq_ok] at h
  obtain ⟨prepared, -, h⟩ := h
  cases prepared with
  | false =>
    cases h
    exact .inl rfl
  | true =>
    rw [if_pos rfl, warp_alias_tunnel hlo hhi] at h
    cases h
    exact .inr rfl

/-- **The routes of a new owner**, its WARP source among them. -/
theorem freeRoutes_owner {nets : List Net} (hlo : 2 ≤ host) (hhi : host ≤ 254)
    (hnets : nets = [tunnel host] ∨ nets = [tunnel host, warp_source host]) (howner : key ∈ owners)
    (h : ensure_routes_available I key nets = .ok ()) :
    FreeRoutes owners I key (nets.map Net.toString) := by
  refine freeRoutes_available h fun host' hlo' hhi' hh => ⟨howner, ?_⟩
  obtain ⟨n, hn, hc⟩ := holds_map.mp hh
  rcases hnets with rfl | rfl
  · rw [List.mem_singleton.mp hn] at hc
    exact absurd (contains_tunnel.mp hc) (tunnel_ne_source hhi hhi')
  · rw [List.mem_pair] at hn
    rcases hn with rfl | rfl
    · exact absurd (contains_tunnel.mp hc) (tunnel_ne_source hhi hhi')
    · rw [warp_source_inj hhi hhi' (contains_warp_source.mp hc)]
      simp only [primaries, List.map_cons, List.map_nil, List.filterMap_cons, List.filterMap_nil,
        validate_tunnel hlo hhi, validate_warp_source hhi]

/-! ## WARP authorization -/

/-- What a WARP authorization gives to the owner with these routes. -/
structure Sourced (I : Interface) (key : String) (old : List String) (host : ℕ)
    (routes : List String) : Prop where
  low : 2 ≤ host
  high : host ≤ 254
  primary : primaries old = [tunnel host]
  known : ∀ route ∈ old,
    route ∈ [(tunnel host).toString, (warp_source host).toString, CLIENT_SUBNET]
  available : ensure_routes_available I key [warp_source host] = .ok ()
  result : routes = if (warp_source host).toString ∈ old then old
    else old ++ [(warp_source host).toString]

theorem mem_primaries {n : Net} (h : n ∈ primaries routes) :
    ∃ route ∈ routes, Net.ofString? route = some n ∧ ∃ host, 2 ≤ host ∧ host ≤ 254 ∧
      n = tunnel host := by
  obtain ⟨route, hr, hv⟩ := List.mem_filterMap.mp h
  cases hok : validate_tunnel_ip route with
  | error e => rw [hok] at hv; cases hv
  | ok network =>
    rw [hok] at hv
    cases hv
    exact ⟨route, hr, validate_tunnel_ip_eq_ok.mp hok⟩

theorem warp_route_eq_ok {old routes : List String} (h : warp_route I key old = .ok routes) :
    ∃ host, Sourced I key old host routes := by
  unfold warp_route at h
  split at h
  · rename_i primary hprimary
    have hmem : primary ∈ primaries old := by
      rw [primaries, hprimary]
      exact List.mem_singleton_self primary
    obtain ⟨-, -, -, host, hlo, hhi, rfl⟩ := mem_primaries hmem
    simp only [warp_alias_tunnel hlo hhi, bind_eq_ok, bail_if_eq_ok, Except.ok.injEq,
      exists_eq_left'] at h
    obtain ⟨_, hknown, _, havail, h⟩ := h
    rw [List.any_eq_false] at hknown
    refine ⟨host, hlo, hhi, hprimary, fun route hr => ?_, havail, (Except.ok.inj h).symm⟩
    have hk := hknown route hr
    rwa [decide_eq_true_eq, not_not] at hk
  · cases h

end

section

variable {other : String → String → Prop} {owners : List String} {I : Interface} {key : String}
  {old routes : List String} {host : ℕ}

theorem client_subnet_net : Net.ofString? CLIENT_SUBNET = some ⟨Ipv4.addr 10 203 1 0, 24, by decide⟩ := by
  decide +kernel

theorem client_subnet_contains {ip : Ipv4.Addr}
    (h : (⟨Ipv4.addr 10 203 1 0, 24, by decide⟩ : Net).contains ip = true) : ip.toNat / 256 = (10 * 256 + 203) * 256 + 1 := by
  have hsize : (⟨Ipv4.addr 10 203 1 0, 24, by decide⟩ : Net).size = 256 := by decide
  have hn := Net.contains_iff.mp h
  rw [hsize, addr_toNat (by decide) (by decide) (by decide) (by decide)] at hn
  exact hn

theorem Sourced.mem (h : Sourced I key old host routes) {route : String} (hr : route ∈ routes) :
    route ∈ old ∨ route = (warp_source host).toString := by
  rw [h.result] at hr
  split_ifs at hr with hin
  · exact .inl hr
  · rwa [List.mem_append, List.mem_singleton] at hr

theorem Sourced.networks (h : Sourced I key old host routes) {route : String} (hr : route ∈ routes) :
    ∃ n, Net.ofString? route = some n ∧ ∀ host', 2 ≤ host' → host' ≤ 254 →
      n.contains (warp_source host').addr = true → host' = host := by
  have hcases : route = (tunnel host).toString ∨ route = (warp_source host).toString ∨
      route = CLIENT_SUBNET := by
    rcases h.mem hr with hr | hr
    · simpa using h.known route hr
    · exact .inr (.inl hr)
  rcases hcases with rfl | rfl | rfl
  · refine ⟨_, Net.ofString?_toString _, fun host' _ hhi hc => ?_⟩
    exact absurd (contains_tunnel.mp hc) (tunnel_ne_source h.high hhi)
  · refine ⟨_, Net.ofString?_toString _, fun host' _ hhi hc => ?_⟩
    exact warp_source_inj h.high hhi (contains_warp_source.mp hc)
  · refine ⟨_, client_subnet_net, fun host' _ hhi hc => ?_⟩
    have hn := client_subnet_contains hc
    rw [warp_source_toNat hhi] at hn
    omega

theorem Sourced.primaries (h : Sourced I key old host routes) : primaries routes = [tunnel host] := by
  rw [h.result]
  split_ifs with hin
  · exact h.primary
  · have hsource : Server.primaries [(warp_source host).toString] = [] := by
      simp only [Server.primaries, List.filterMap_cons, List.filterMap_nil, validate_warp_source h.high]
    have happ : Server.primaries (old ++ [(warp_source host).toString]) =
        Server.primaries old ++ Server.primaries [(warp_source host).toString] := List.filterMap_append
    rw [happ, h.primary, hsource, List.append_nil]

theorem unshared_of_apart (h : Apart (Overlap other) I) {p q : String × List String}
    (hp : p ∈ I.peers) (hq : q ∈ I.peers) (hk : p.1 ≠ q.1) : Unshared p.2 q.2 := by
  intro route hr route' hr' n n' hn hn' ip hip
  refine h p hp q hq hk route hr route' hr' ?_
  unfold Overlap
  rw [hn, hn']
  exact ⟨ip, hip⟩

theorem unshared_left {routes' : List String} {route : String} (h : Unshared routes routes')
    (hr : Unshared [route] routes') : Unshared (routes ++ [route]) routes' := by
  intro r hmem
  rcases List.mem_append.mp hmem with hmem | hmem
  · exact h r hmem
  · exact hr r hmem

/-- The source is nobody else's, so an authorized owner's routes are apart from the others'. -/
theorem Sourced.unshared (h : Sourced I key old host routes) (hI : Apart (Overlap other) I)
    (hp : (key, old) ∈ I.peers) {q : String × List String} (hq : q ∈ I.peers) (hk : q.1 ≠ key) :
    Unshared routes q.2 := by
  have hold : Unshared old q.2 := unshared_of_apart hI hp hq hk.symm
  rw [h.result]
  split_ifs with hin
  · exact hold
  · exact unshared_left hold (available_disjoint h.available hq hk)

theorem Sourced.freeRoutes (h : Sourced I key old host routes) (hI : Apart (Overlap other) I)
    (hp : (key, old) ∈ I.peers) (howner : key ∈ owners) : FreeRoutes owners I key routes where
  networks := by
    intro route hr
    obtain ⟨n, hn, -⟩ := h.networks hr
    exact ⟨n, hn⟩
  disjoint := fun _ hq hk => h.unshared hI hp hq hk
  aliased := by
    rintro host' hlo hhi ⟨route, hr, n, hn, hc⟩
    obtain ⟨n', hn', hsame⟩ := h.networks hr
    rw [hn, Option.some.injEq] at hn'
    subst hn'
    rw [hsame host' hlo hhi hc]
    exact ⟨howner, h.primaries⟩

theorem Sourced.unshared_sourced {key' : String} {old' routes' : List String} {host' : ℕ}
    (h : Sourced I key old host routes) (h' : Sourced I key' old' host' routes')
    (hI : Apart (Overlap other) I) (hp : (key, old) ∈ I.peers) (hp' : (key', old') ∈ I.peers)
    (hk : key ≠ key') : Unshared routes routes' := by
  have hhost : host ≠ host' := by
    rintro rfl
    obtain ⟨r, hr, hn, -⟩ := mem_primaries (h.primary ▸ List.mem_singleton_self (tunnel host))
    obtain ⟨r', hr', hn', -⟩ := mem_primaries (h'.primary ▸ List.mem_singleton_self (tunnel host))
    exact unshared_of_apart hI hp hp' hk r hr r' hr' _ _ hn hn' _
      ⟨Net.contains_addr _, Net.contains_addr _⟩
  have hsource : Unshared [(warp_source host').toString] routes := by
    rw [h.result]
    have hold : Unshared [(warp_source host').toString] old := available_disjoint h'.available hp hk
    split_ifs with hin
    · exact hold
    · refine (unshared_left hold.symm ?_).symm
      intro r hr r' hr' n n' hn hn' ip hip
      rw [List.mem_singleton.mp hr, Net.ofString?_toString, Option.some.injEq] at hn
      rw [List.mem_singleton.mp hr', Net.ofString?_toString, Option.some.injEq] at hn'
      subst hn hn'
      have hs := contains_warp_source.mp hip.1
      rw [contains_warp_source.mp hip.2] at hs
      exact hhost (warp_source_inj h.high h'.high hs).symm
  rw [h'.result]
  split_ifs with hin
  · exact h.unshared hI hp hp' hk.symm
  · exact (unshared_left (h.unshared hI hp hp' hk.symm).symm hsource).symm

end

theorem free_warp {other : String → String → Prop} {owners : List String} {I : Interface} {store : FriendStore}
    {changes : List Change} (hI : Apart (Overlap other) I) (howners : store.owners ⊆ owners)
    (h : warp_changes I store = .ok changes) : Free owners I changes := by
  have hsourced : ∀ key routes, Change.set key routes ∈ changes → ∃ old host,
      (key, old) ∈ I.peers ∧ key ∈ store.owners ∧ Sourced I key old host routes := by
    intro key routes hc
    obtain ⟨⟨key', old⟩, hp, ho, routes', hr, he⟩ := mem_warp_changes h hc
    rw [Change.set.injEq] at he
    obtain ⟨rfl, rfl⟩ := he
    obtain ⟨host, hs⟩ := warp_route_eq_ok hr
    have hfields : fields old = old := by
      unfold fields
      split_ifs with hnil
      · -- without routes the peer has no tunnel address
        rw [fields, if_pos hnil] at hs
        have hnone : primaries ["(none)"] = [] := by decide +kernel
        exact absurd hs.primary (by rw [hnone]; exact List.cons_ne_nil _ _ ∘ Eq.symm)
      · rfl
    exact ⟨old, host, hp, ho, hfields ▸ hs⟩
  constructor
  · intro key routes hc
    obtain ⟨old, host, hp, ho, hs⟩ := hsourced key routes hc
    exact hs.freeRoutes hI hp (howners ho)
  · intro key routes key' routes' hc hc' hk
    obtain ⟨old, host, hp, -, hs⟩ := hsourced key routes hc
    obtain ⟨old', host', hp', -, hs'⟩ := hsourced key' routes' hc'
    exact hs.unshared_sourced hs' hI hp hp' hk

/-! ## Recorded owners -/

theorem recorded_owners_of_parse {data : String} {store : FriendStore}
    (h : parse_store data = .ok store) : recorded_owners (some data) = store.owners := by
  rw [recorded_owners, h]

theorem recorded_owners_encode {data : String} {store : FriendStore} (hs : store.schema = 2)
    (h : encode_store store = .ok data) : recorded_owners (some data) = store.owners :=
  recorded_owners_of_parse (parse_store_encode hs h).2

theorem recorded_owners_read {metadata : Option String} {store : FriendStore}
    (h : read_store metadata = .ok store) : recorded_owners metadata = store.owners := by
  cases metadata with
  | none =>
    cases h
    rfl
  | some data => exact recorded_owners_of_parse (read_store_eq_ok.mp h).2.1

theorem subset_with_owner {store : FriendStore} {public_key : String} :
    store.owners ⊆ with_owner store public_key := by
  unfold with_owner
  split_ifs with h
  · exact List.Subset.refl _
  · exact List.subset_append_left _ _

theorem mem_with_owner {store : FriendStore} {public_key : String} :
    public_key ∈ with_owner store public_key := by
  unfold with_owner
  split_ifs with h
  · exact h
  · exact List.mem_append_right _ (List.mem_singleton_self _)

section

variable [Platform] {other : String → String → Prop} {held : Prop} {interface : String} {added : Option String}
  {legacy : Vps → String → String → Prop} {created : String → FriendStore → Prop} {s s' : Vps} {plan : Plan} {metadata : Option String}

/-- The metadata that a plan writes has the same owners, or one more. -/
structure Next (s : Vps) (next store : FriendStore) : Prop where
  loaded : Loaded s store
  schema : next.schema = 2
  owners : store.owners ⊆ next.owners

theorem Planned.next (h : Planned interface added legacy created s plan) {next : FriendStore}
    (hn : plan.next = some next) : ∃ store, Next s next store := by
  cases h with
  | friend loaded => cases hn; exact ⟨_, loaded, loaded.schema, List.Subset.refl _⟩
  | renamed loaded => cases hn; exact ⟨_, loaded, loaded.schema, List.Subset.refl _⟩
  | revoked loaded => cases hn; exact ⟨_, loaded, loaded.schema, List.Subset.refl _⟩
  | owner loaded => cases hn; exact ⟨_, loaded, loaded.schema, subset_with_owner⟩
  | warp => cases hn
  | owner_removed => cases hn
  | peer => cases hn
  | peer_removed => cases hn

theorem Planned.undo (h : Planned interface added legacy created s plan) {store : FriendStore}
    (hu : plan.undo = some store) : Loaded s store := by
  cases h with
  | friend loaded => cases hu; exact loaded
  | renamed => cases hu
  | revoked loaded => cases hu; exact loaded
  | owner loaded =>
    dsimp only at hu
    split_ifs at hu
    cases hu
    exact loaded
  | warp => cases hu
  | owner_removed => cases hu
  | peer => cases hu
  | peer_removed => cases hu

theorem Planned.written_owners (h : Planned interface added legacy created s plan)
    (hw : Written plan.next s.metadata metadata) :
    recorded_owners s.metadata ⊆ recorded_owners metadata := by
  cases hn : plan.next with
  | none =>
    rw [hn] at hw
    rw [show metadata = s.metadata from hw]
    exact List.Subset.refl _
  | some next =>
    rw [hn] at hw
    obtain ⟨data, hdata, rfl⟩ := hw
    obtain ⟨store, hnext⟩ := h.next hn
    rw [recorded_owners_read hnext.loaded.read, recorded_owners_encode hnext.schema hdata]
    exact hnext.owners

theorem Planned.undone_owners (h : Planned interface added legacy created s plan) {store : FriendStore}
    {data : String} (hu : plan.undo = some store) (hd : encode_store store = .ok data) :
    recorded_owners (some data) = recorded_owners s.metadata := by
  have hload := h.undo hu
  rw [recorded_owners_read hload.read, recorded_owners_encode hload.schema hd]

/-- **Every plan's changes are free**, with the owners that it has written before. -/
theorem Planned.free (h : Planned interface added legacy created s plan) (hI : Apart (Overlap other) s.live)
    (hw : Written plan.next s.metadata metadata) :
    Free (recorded_owners metadata) s.live plan.changes := by
  cases h with
  | friend _ _ _ _ _ free _ =>
    exact (freeRoutes_tunnel free.high fun p hp _ => free.free p hp).free
  | renamed => exact free_nil
  | revoked => exact free_remove
  | owner loaded _ _ low high assigned available =>
    obtain ⟨data, hdata, rfl⟩ := hw
    refine (freeRoutes_owner low high (owner_routes_cases low high assigned) ?_ available).free
    rw [recorded_owners_encode (by exact loaded.schema) hdata]
    exact mem_with_owner
  | warp loaded routes =>
    rw [show metadata = s.metadata from hw, recorded_owners_read loaded.read]
    exact free_warp hI (List.Subset.refl _) routes
  | owner_removed => exact free_remove
  | peer _ _ _ _ high available =>
    refine (@freeRoutes_available _ _ _ [tunnel _] available fun host' _ hhi' hh => ?_).free
    obtain ⟨n, hn, hc⟩ := holds_map.mp hh
    rw [List.mem_singleton.mp hn] at hc
    exact absurd (contains_tunnel.mp hc) (tunnel_ne_source high hhi')
  | peer_removed => exact free_remove

/-! ## Runs -/

theorem Assigned.moved (h : Assigned other held s) (hp : Planned interface added legacy created s plan)
    (hm : Moved plan s s') : Assigned other held s' := by
  cases hm with
  | untouched => exact h
  | @midway live saved metadata hw hl hs =>
    have hfree := hp.free h.live.apart hw
    have hlive := h.live.mono (hp.written_owners hw)
    refine ⟨hfree.midway hlive hl, ?_⟩
    show Good other held (recorded_owners metadata) saved
    rcases hs with rfl | rfl | rfl
    · exact h.saved.mono (hp.written_owners hw)
    · exact hlive
    · exact hfree.applied hlive
  | @undone store data hu hd =>
    have howners := hp.undone_owners hu hd
    have hlive : Good other held (recorded_owners (some data)) s.live := howners ▸ h.live
    exact ⟨hlive, hlive⟩

theorem Assigned.shift (h : Assigned other held s) (hs : Shift interface added legacy created s s') :
    Assigned other held s' := by
  cases hs with
  | @migrated old store data read schema migrated encoded =>
    have howners : recorded_owners s.metadata ⊆ recorded_owners (some data) := by
      rw [recorded_owners_read read, (read_store_schema read).resolve_right (by omega) |>.2]
      exact List.nil_subset _
    exact ⟨h.live.mono howners, h.saved.mono howners⟩
  | planned hp hm => exact h.moved hp hm
  | saved => exact ⟨h.live, h.live⟩
  | halted => exact ⟨h.live.take _, h.saved⟩
  | warp => exact ⟨h.live, h.saved⟩

theorem Assigned.shifts (h : Assigned other held s) (hs : Shifts interface added legacy created s s') :
    Assigned other held s' := by
  induction hs with
  | refl => exact h
  | tail _ hstep ih => exact ih.shift hstep

theorem Assigned.step (h : Assigned other held s) (event : Event) :
    Assigned other held (event.step interface s) := by
  cases event with
  | run command faults => exact h.shifts (dispatch_shifts command)
  | start => exact ⟨h.saved, h.saved⟩
  | stop => exact ⟨h.live, h.live⟩

/-- **Addresses never overlap**: in every run of commands, failures and restarts, the peers of the
live interface have their own addresses, and so have those of the saved one; a WARP source is held
by the recorded owner with that tunnel address only, unless the run has started otherwise. -/
theorem addresses_assigned (other : String → String → Prop) (interface : String) (s : Vps)
    (events : List Event) (h : Separate other s) :
    Separate other (run (Event.step interface) s events) ∧
      (Held s → Held (run (Event.step interface) s events)) := by
  have hstart : Assigned other (Held s) s := ⟨⟨h.live, Held.live⟩, ⟨h.saved, Held.saved⟩⟩
  have hrun : Assigned other (Held s) (run (Event.step interface) s events) :=
    (along_of_forall fun _ _ => trivial).invariant (fun _ event _ h => Assigned.step h event) hstart
  exact ⟨⟨hrun.live.apart, hrun.saved.apart⟩,
    fun hheld => ⟨hrun.live.aliased hheld, hrun.saved.aliased hheld⟩⟩

end

theorem held_sample : Held sample := by
  have hnone : ∀ p ∈ sample_peers.peers, ∀ n ∈ networks p.2, ∀ host < 255,
      n.contains (warp_source host).addr = false := by decide +kernel
  have haliased : Aliased (recorded_owners sample.metadata) sample_peers := by
    rintro p hp host - hhi ⟨route, hr, n, hn, hc⟩
    rw [hnone p hp n (mem_networks hr hn) host (Nat.lt_succ_of_le hhi)] at hc
    cases hc
  exact ⟨haliased, haliased⟩

/-- A second router and WARP beside the first router and a friend. -/
theorem addresses_assigned_sample : letI := sample_platform
    let events := [.run (.create_router_profile "198.51.100.1:8443" CAROL) Faults.none,
      .run (.enable_warp true) { Faults.none with network := some "WG_INTERFACE=gt0\n" }]
    Separate (fun _ _ => True) (run (Event.step "gt0") sample events) ∧
      Held (run (Event.step "gt0") sample events) := by
  let _ := sample_platform
  have hapart : Apart (Overlap fun _ _ => True) sample_peers :=
    apart_of_available (by decide +kernel)
  obtain ⟨hseparate, hheld⟩ := addresses_assigned (fun _ _ => True) "gt0" sample
    [.run (.create_router_profile "198.51.100.1:8443" CAROL) Faults.none,
      .run (.enable_warp true) { Faults.none with network := some "WG_INTERFACE=gt0\n" }]
    ⟨hapart, hapart⟩
  exact ⟨hseparate, hheld held_sample⟩

end Gofro.Server

import GofroRouter.Agent.Dataplane.Render

/-!
# What the scripts do to the routing table

Leases and device exclusions own some objects of the routing table, the policy owns the others.

* `Rendered`: a table holds given fake addresses and excluded devices, and the policy's objects.
* **`runEdits_table`**: the full script builds exactly such a table.
* `Rendered.install`, `Rendered.remove`, `Rendered.publish`: the smaller scripts lead from one such
  table to another.
-/

namespace Gofro.Agent

open Nft (Edit Key Table onKey runObject runEdits)

/-- The set of fake addresses with a target. -/
def fake_set : RouteTarget → String
  | .direct => "fake_direct"
  | .vpn => "fake_vpn"
  | .warp => "fake_warp"
  | .block => "fake_block"

theorem fake_set_inj {a b : RouteTarget} : fake_set a = fake_set b ↔ a = b := by
  cases a <;> cases b <;> decide

theorem fake_set_ne_exclusions (target : RouteTarget) : fake_set target ≠ "device_exclusions" := by
  cases target <;> decide

/-- The objects that hold devices and fake addresses. -/
def Owned (k : Key) : Prop :=
  k = .set "device_exclusions" ∨ k = .map "fake_to_real" ∨ ∃ target, k = .set (fake_set target)

/-- The content of `fake_to_real`. -/
def fake_map (mappings : List FakeMapping) : Nft.AddrMap := fun a =>
  (mappings.map fun mapping => (mapping.fake, mapping.real)).lookup a

/-- The content of the set of a target. -/
def fake_elems (mappings : List FakeMapping) (target : RouteTarget) : Finset Nft.Elem :=
  ((target_keys mappings target).map Nft.Elem.addr).toFinset

/-- The table holds these fake addresses, these excluded devices, and what `base` builds. -/
structure Rendered (base : List Edit) (mappings : List FakeMapping) (exclusions : List MacAddress)
    (t : Table) : Prop where
  excluded : t (.set "device_exclusions") =
    some ⟨.ether_addr, (exclusion_elements exclusions).toFinset⟩
  fake_to_real : t (.map "fake_to_real") = some (fake_map mappings)
  fakes : ∀ target, t (.set (fake_set target)) = some ⟨.ipv4_addr, fake_elems mappings target⟩
  rest : ∀ k, ¬ Owned k → runObject k none (onKey k base) = some (t k)

theorem Rendered.unique {base : List Edit} {mappings : List FakeMapping}
    {exclusions : List MacAddress} {t t' : Table} (h : Rendered base mappings exclusions t)
    (h' : Rendered base mappings exclusions t') : t = t' := by
  funext k
  by_cases hk : Owned k
  · obtain rfl | rfl | ⟨target, rfl⟩ := hk
    · rw [h.excluded, h'.excluded]
    · rw [h.fake_to_real, h'.fake_to_real]
    · rw [h.fakes, h'.fakes]
  · exact Option.some.inj ((h.rest k hk).symm.trans (h'.rest k hk))

/-! ## The objects a block of the script names -/

theorem key_of_mem_add_exclusions {exclusions : List MacAddress} {e : Edit}
    (h : e ∈ add_exclusions exclusions) : e.key = .set "device_exclusions" := by
  unfold add_exclusions at h
  split_ifs at h
  · cases h
  · rw [List.mem_singleton.mp h]; rfl

theorem key_of_mem_target_elements {mappings : List FakeMapping}
    {operation : List Nft.Elem → Nft.SetAction} {e : Edit}
    (h : e ∈ append_target_elements mappings operation) :
    ∃ target, e.key = .set (fake_set target) := by
  obtain ⟨⟨target, set⟩, hm, he⟩ := List.mem_flatMap.mp h
  have hs : set = fake_set target := by
    simp only [FAKE_TARGET_SETS, List.mem_cons, Prod.mk.injEq, List.not_mem_nil, or_false] at hm
    obtain ⟨rfl, rfl⟩ | ⟨rfl, rfl⟩ | ⟨rfl, rfl⟩ | ⟨rfl, rfl⟩ := hm <;> rfl
  simp only at he
  split_ifs at he
  · cases he
  · rw [List.mem_singleton.mp he, hs]; exact ⟨target, rfl⟩

theorem key_of_mem_append_mappings {mappings : List FakeMapping} {e : Edit}
    (h : e ∈ append_mappings mappings) :
    e.key = .map "fake_to_real" ∨ ∃ target, e.key = .set (fake_set target) := by
  unfold append_mappings at h
  split_ifs at h
  · cases h
  · rcases List.mem_cons.mp h with rfl | h
    · exact .inl rfl
    · exact .inr (key_of_mem_target_elements h)

theorem key_of_mem_fake_objects {e : Edit} (h : e ∈ fake_objects) :
    e.key = .map "fake_to_real" ∨ ∃ target, e.key = .set (fake_set target) := by
  simp only [fake_objects, FAKE_TARGET_SETS, List.map_cons, List.map_nil, List.mem_cons,
    List.not_mem_nil, or_false] at h
  obtain rfl | rfl | rfl | rfl | rfl := h
  · exact .inl rfl
  · exact .inr ⟨.direct, rfl⟩
  · exact .inr ⟨.vpn, rfl⟩
  · exact .inr ⟨.warp, rfl⟩
  · exact .inr ⟨.block, rfl⟩

theorem onKey_target_elements (mappings : List FakeMapping)
    (operation : List Nft.Elem → Nft.SetAction) (target : RouteTarget) :
    onKey (.set (fake_set target)) (append_target_elements mappings operation) =
      if (target_keys mappings target).isEmpty then []
      else [operation ((target_keys mappings target).map .addr)] := by
  have h : ∀ t, onKey (.set (fake_set target)) (if (target_keys mappings t).isEmpty then []
      else [.set (fake_set t) (operation ((target_keys mappings t).map .addr))]) =
      if t = target then
        (if (target_keys mappings t).isEmpty then []
          else [operation ((target_keys mappings t).map .addr)])
      else [] := by
    intro t
    split_ifs with h₁ h₂ h₂
    · rfl
    · rfl
    · rw [Nft.onKey_set_set, if_pos (congrArg fake_set h₂)]; rfl
    · rw [Nft.onKey_set_set, if_neg (mt fake_set_inj.mp h₂)]; rfl
  have hl : FAKE_TARGET_SETS =
      [RouteTarget.direct, .vpn, .warp, .block].map fun t => (t, fake_set t) := rfl
  rw [append_target_elements, hl, List.flatMap_map, Nft.onKey_flatMap]
  simp only [h]
  cases target <;> simp

/-! ## Fake addresses -/

theorem mem_target_keys {mappings : List FakeMapping} {target : RouteTarget} {a : Ipv4Addr} :
    a ∈ target_keys mappings target ↔ ∃ m ∈ mappings, m.target = target ∧ m.fake = a := by
  simp [target_keys, and_assoc]

theorem target_keys_nodup {mappings : List FakeMapping}
    (hn : (mappings.map FakeMapping.fake).Nodup) (target : RouteTarget) :
    (target_keys mappings target).Nodup :=
  hn.sublist (List.filter_sublist.map _)

theorem mem_fake_elems {mappings : List FakeMapping} {target : RouteTarget} {e : Nft.Elem} :
    e ∈ fake_elems mappings target ↔ ∃ m ∈ mappings, m.target = target ∧ e = .addr m.fake := by
  simp only [fake_elems, List.mem_toFinset, List.mem_map, mem_target_keys]
  constructor
  · rintro ⟨a, ⟨m, hm, ht, rfl⟩, rfl⟩
    exact ⟨m, hm, ht, rfl⟩
  · rintro ⟨m, hm, ht, rfl⟩
    exact ⟨m.fake, ⟨m, hm, ht, rfl⟩, rfl⟩

theorem eq_of_fake_eq {mappings : List FakeMapping} (hn : (mappings.map FakeMapping.fake).Nodup)
    {m m' : FakeMapping} (hm : m ∈ mappings) (hm' : m' ∈ mappings) (h : m.fake = m'.fake) :
    m = m' := List.inj_on_of_nodup_map hn hm hm' h

/-- **The map holds exactly the mappings.** -/
theorem fake_map_eq_some {mappings : List FakeMapping}
    (hn : (mappings.map FakeMapping.fake).Nodup) {a r : Ipv4Addr} :
    fake_map mappings a = some r ↔ ∃ m ∈ mappings, m.fake = a ∧ m.real = r := by
  induction mappings with
  | nil => simp [fake_map]
  | cons m mappings ih =>
    obtain ⟨hm, hn⟩ := List.nodup_cons.mp hn
    have ih := ih hn
    rw [fake_map] at ih ⊢
    rw [List.map_cons, List.lookup_cons]
    by_cases ha : a = m.fake
    · subst ha
      have hno : ∀ m' ∈ mappings, m'.fake ≠ m.fake :=
        fun m' h' he => hm (he ▸ List.mem_map_of_mem h')
      simp only [beq_self_eq_true, List.mem_cons, exists_eq_or_imp, true_and, Option.some.injEq]
      exact ⟨Or.inl, fun h => h.resolve_right fun ⟨m', h', he, _⟩ => hno m' h' he⟩
    · rw [beq_false_of_ne ha]
      simp only [List.mem_cons, exists_eq_or_imp, ih, Ne.symm ha, false_and, false_or]

theorem fake_map_eq_none {mappings : List FakeMapping} {a : Ipv4Addr} :
    fake_map mappings a = none ↔ a ∉ mappings.map FakeMapping.fake := by
  rw [fake_map, List.lookup_eq_none_iff, List.forall_mem_map, List.mem_map, not_exists]
  refine forall_congr' fun m => ?_
  rw [not_and, bne_iff_ne, ne_comm]

theorem fake_map_append {as bs : List FakeMapping} (a : Ipv4Addr) :
    fake_map (as ++ bs) a = (fake_map as a).or (fake_map bs a) := by
  rw [fake_map, List.map_append, List.lookup_append]
  rfl

theorem Rendered.congr {base : List Edit} {mappings mappings' : List FakeMapping}
    {exclusions exclusions' : List MacAddress} {t : Table}
    (h : Rendered base mappings exclusions t) (hn : (mappings.map FakeMapping.fake).Nodup)
    (hn' : (mappings'.map FakeMapping.fake).Nodup) (hm : ∀ m, m ∈ mappings' ↔ m ∈ mappings)
    (hx : ∀ mac, mac ∈ exclusions' ↔ mac ∈ exclusions) :
    Rendered base mappings' exclusions' t := by
  have helems : (exclusion_elements exclusions').toFinset =
      (exclusion_elements exclusions).toFinset := by
    ext e
    simp only [exclusion_elements, List.mem_toFinset, List.mem_map, hx]
  have hmap : fake_map mappings' = fake_map mappings := by
    funext a
    apply Option.ext
    intro r
    rw [fake_map_eq_some hn, fake_map_eq_some hn']
    simp only [hm]
  have hfakes : ∀ target, fake_elems mappings' target = fake_elems mappings target := by
    intro target
    ext e
    simp only [mem_fake_elems, hm]
  exact ⟨helems ▸ h.excluded, hmap ▸ h.fake_to_real, fun target => hfakes target ▸ h.fakes target,
    h.rest⟩

/-! ## Updates -/

section

variable {base es : List Edit} {mappings mappings' : List FakeMapping}
  {exclusions exclusions' : List MacAddress} {t : Table}

theorem Rendered.run (h : Rendered base mappings exclusions t) (hk : ∀ e ∈ es, Owned e.key)
    (hx : runObject (.set "device_exclusions") (t (.set "device_exclusions")) (onKey _ es) =
      some (some ⟨.ether_addr, (exclusion_elements exclusions').toFinset⟩))
    (hm : runObject (.map "fake_to_real") (t (.map "fake_to_real")) (onKey _ es) =
      some (some (fake_map mappings')))
    (hf : ∀ target, runObject (.set (fake_set target)) (t (.set (fake_set target))) (onKey _ es) =
      some (some ⟨.ipv4_addr, fake_elems mappings' target⟩)) :
    ∃ t', runEdits t es = some t' ∧ Rendered base mappings' exclusions' t' := by
  have hrest : ∀ k, ¬ Owned k → onKey k es = [] :=
    fun k hno => Nft.onKey_eq_nil fun e he hek => hno (hek ▸ hk e he)
  have hsome : ∃ t', runEdits t es = some t' := Nft.runEdits_isSome fun k => by
    by_cases ho : Owned k
    · obtain rfl | rfl | ⟨target, rfl⟩ := ho
      · rw [hx]; rfl
      · rw [hm]; rfl
      · rw [hf]; rfl
    · rw [hrest k ho]; rfl
  obtain ⟨t', ht'⟩ := hsome
  have hkey := Nft.runEdits_key ht'
  refine ⟨t', ht', Option.some.inj ((hkey _).symm.trans hx),
    Option.some.inj ((hkey _).symm.trans hm),
    fun target => Option.some.inj ((hkey _).symm.trans (hf target)), fun k ho => ?_⟩
  have hsame := hkey k
  rw [hrest k ho, runObject, Option.some.injEq] at hsame
  rw [h.rest k ho, hsame]

theorem onKey_add_exclusions (exclusions : List MacAddress) :
    onKey (.set "device_exclusions") (add_exclusions exclusions) =
      if exclusions.isEmpty then [] else [.add_elements (exclusion_elements exclusions)] := by
  unfold add_exclusions
  split_ifs <;> simp

theorem runObject_add_exclusions :
    runObject (.set "device_exclusions") (some ⟨.ether_addr, ∅⟩)
      (onKey _ (add_exclusions exclusions)) =
      some (some ⟨.ether_addr, (exclusion_elements exclusions).toFinset⟩) := by
  rw [onKey_add_exclusions, exclusion_elements, Nft.runObject_add_elements _ fun _ => rfl]
  simp

/-- **Publishing exclusions** replaces the excluded devices. -/
theorem Rendered.publish (h : Rendered base mappings exclusions t)
    (exclusions' : List MacAddress) :
    ∃ t', runEdits t (publish_edits exclusions') = some t' ∧
      Rendered base mappings exclusions' t' := by
  have hkey : ∀ e ∈ publish_edits exclusions', e.key = .set "device_exclusions" := by
    intro e he
    rcases List.mem_cons.mp he with rfl | he
    · rfl
    · exact key_of_mem_add_exclusions he
  have hno : ∀ k, k ≠ .set "device_exclusions" → onKey k (publish_edits exclusions') = [] :=
    fun k hk => Nft.onKey_eq_nil fun e he hek => hk (hek ▸ hkey e he)
  refine h.run (fun e he => .inl (hkey e he)) ?_ ?_ fun target => ?_
  · rw [publish_edits, Nft.onKey_set_set, if_pos rfl, h.excluded]
    exact runObject_add_exclusions
  · rw [hno _ (by simp), h.fake_to_real]; rfl
  · rw [hno _ (by simpa using fake_set_ne_exclusions target), h.fakes]; rfl

theorem onKey_exclusions_append_mappings :
    onKey (.set "device_exclusions") (append_mappings mappings) = [] :=
  Nft.onKey_eq_nil fun e he hek => by
    rcases key_of_mem_append_mappings he with h | ⟨target, h⟩
    · rw [h] at hek; cases hek
    · rw [h] at hek; exact fake_set_ne_exclusions target (Key.set.inj hek)

theorem onKey_map_target_elements (operation : List Nft.Elem → Nft.SetAction) (name : String) :
    onKey (.map name) (append_target_elements mappings operation) = [] :=
  Nft.onKey_eq_nil fun e he hek => by
    obtain ⟨target, h⟩ := key_of_mem_target_elements he
    rw [h] at hek
    cases hek

theorem runObject_append_mappings_map (hn : ((mappings ++ mappings').map FakeMapping.fake).Nodup) :
    runObject (.map "fake_to_real") (some (fake_map mappings)) (onKey _ (append_mappings mappings')) =
      some (some (fake_map (mappings ++ mappings'))) := by
  have hfun : (fun a => (fake_map mappings' a).or (fake_map mappings a)) =
      fake_map (mappings ++ mappings') := by
    rw [List.map_append, List.nodup_append] at hn
    funext a
    rw [fake_map_append]
    by_cases ha : a ∈ mappings.map FakeMapping.fake
    · have hno : a ∉ mappings'.map FakeMapping.fake := fun h => hn.2.2 a ha a h rfl
      rw [fake_map_eq_none.mpr hno, Option.none_or, Option.or_none]
    · rw [fake_map_eq_none.mpr ha, Option.none_or, Option.or_none]
  unfold append_mappings
  split_ifs with he
  · rw [List.isEmpty_iff.mp he, List.append_nil]; rfl
  · rw [Nft.onKey_map_map, if_pos rfl, onKey_map_target_elements]
    rw [List.map_append, List.nodup_append] at hn
    have hkeys : ((mappings'.map fun m => (m.fake, m.real)).map Prod.fst).Nodup := by
      simpa [Function.comp_def] using hn.2.1
    have hins := Nft.insertPairs_apply (m := fake_map mappings) hkeys
      (by
        intro q hq
        obtain ⟨m, hm, rfl⟩ := List.mem_map.mp hq
        exact fake_map_eq_none.mpr fun h => hn.2.2 _ h _ (List.mem_map_of_mem hm) rfl)
    show (Nft.insertPairs _ _).bind _ = _
    rw [hins, ← hfun]
    rfl

theorem runObject_append_mappings_set (target : RouteTarget) :
    runObject (.set (fake_set target)) (some ⟨.ipv4_addr, fake_elems mappings target⟩)
      (onKey _ (append_mappings mappings')) =
      some (some ⟨.ipv4_addr, fake_elems (mappings ++ mappings') target⟩) := by
  have hunion : fake_elems mappings target ∪
      ((target_keys mappings' target).map Nft.Elem.addr).toFinset =
        fake_elems (mappings ++ mappings') target := by
    simp only [fake_elems, target_keys, List.filter_append, List.map_append,
      List.toFinset_append]
  unfold append_mappings
  split_ifs with he
  · rw [List.isEmpty_iff.mp he, List.append_nil]; rfl
  · rw [Nft.onKey_set_map, onKey_target_elements, Nft.runObject_add_elements _ fun _ => rfl, hunion]

/-- **Installing mappings** of fake addresses that are not in use. -/
theorem Rendered.install (h : Rendered base mappings exclusions t)
    (hn : ((mappings ++ mappings').map FakeMapping.fake).Nodup) :
    ∃ t', runEdits t (append_mappings mappings') = some t' ∧
      Rendered base (mappings ++ mappings') exclusions t' := by
  refine h.run (fun e he => .inr ?_) ?_ ?_ fun target => ?_
  · exact (key_of_mem_append_mappings he).imp id id
  · rw [onKey_exclusions_append_mappings, h.excluded]; rfl
  · rw [h.fake_to_real]; exact runObject_append_mappings_map hn
  · rw [h.fakes]; exact runObject_append_mappings_set target

/-- The mappings that stay. -/
def retained (removed mappings : List FakeMapping) : List FakeMapping :=
  mappings.filter fun m => !(removed.map FakeMapping.fake).contains m.fake

theorem mem_retained {removed : List FakeMapping} {m : FakeMapping} :
    m ∈ retained removed mappings ↔ m ∈ mappings ∧ m.fake ∉ removed.map FakeMapping.fake := by
  rw [retained, List.mem_filter, Bool.not_eq_true', ← Bool.not_eq_true, List.contains_iff_mem]

theorem runObject_removal_map {removed : List FakeMapping}
    (hn : (mappings.map FakeMapping.fake).Nodup) (hr : (removed.map FakeMapping.fake).Nodup)
    (hs : ∀ m ∈ removed, m ∈ mappings) :
    runObject (.map "fake_to_real") (some (fake_map mappings)) (onKey _ (removal_edits removed)) =
      some (some (fake_map (retained removed mappings))) := by
  have hn' : ((retained removed mappings).map FakeMapping.fake).Nodup :=
    hn.sublist (List.filter_sublist.map _)
  have hfun : (fun a => if a ∈ removed.map FakeMapping.fake then none else fake_map mappings a) =
      fake_map (retained removed mappings) := by
    funext a
    apply Option.ext
    intro r
    rw [fake_map_eq_some hn']
    simp only [mem_retained]
    split_ifs with ha
    · simp only [false_iff, not_exists, not_and]
      rintro m ⟨-, hm⟩ rfl
      exact absurd ha hm
    · rw [fake_map_eq_some hn]
      constructor
      · rintro ⟨m, hm, rfl, rfl⟩; exact ⟨m, ⟨hm, ha⟩, rfl, rfl⟩
      · rintro ⟨m, ⟨hm, -⟩, rfl, rfl⟩; exact ⟨m, hm, rfl, rfl⟩
  have hdel := Nft.deleteKeys_apply (m := fake_map mappings) hr fun a ha => by
    rw [ne_eq, fake_map_eq_none, not_not]
    obtain ⟨m, hm, rfl⟩ := List.mem_map.mp ha
    exact List.mem_map_of_mem (hs m hm)
  rw [removal_edits, Nft.onKey_map_map, if_pos rfl, onKey_map_target_elements]
  show (Nft.deleteKeys _ _).bind _ = _
  rw [hdel, hfun]
  rfl

theorem runObject_removal_set {removed : List FakeMapping}
    (hn : (mappings.map FakeMapping.fake).Nodup) (hr : (removed.map FakeMapping.fake).Nodup)
    (hs : ∀ m ∈ removed, m ∈ mappings) (target : RouteTarget) :
    runObject (.set (fake_set target)) (some ⟨.ipv4_addr, fake_elems mappings target⟩)
      (onKey _ (removal_edits removed)) =
      some (some ⟨.ipv4_addr, fake_elems (retained removed mappings) target⟩) := by
  have hsdiff : fake_elems mappings target \ fake_elems removed target =
      fake_elems (retained removed mappings) target := by
    ext e
    simp only [Finset.mem_sdiff, mem_fake_elems, mem_retained]
    constructor
    · rintro ⟨⟨m, hm, ht, rfl⟩, hno⟩
      refine ⟨m, ⟨hm, fun hf => hno ?_⟩, ht, rfl⟩
      obtain ⟨m', hm', he⟩ := List.mem_map.mp hf
      rw [eq_of_fake_eq hn (hs m' hm') hm he] at hm'
      exact ⟨m, hm', ht, rfl⟩
    · rintro ⟨m, ⟨hm, hf⟩, ht, rfl⟩
      refine ⟨⟨m, hm, ht, rfl⟩, ?_⟩
      rintro ⟨m', hm', -, he⟩
      exact hf (List.mem_map.mpr ⟨m', hm', (Nft.Elem.addr.inj he).symm⟩)
  have hinj : Function.Injective Nft.Elem.addr := fun a b h => Nft.Elem.addr.inj h
  rw [removal_edits, Nft.onKey_set_map, onKey_target_elements,
    Nft.runObject_delete_elements _ ((target_keys_nodup hr target).map hinj), ← hsdiff]
  · rfl
  · intro a ha
    obtain ⟨m, hm, ht, rfl⟩ := mem_target_keys.mp ha
    exact mem_fake_elems.mpr ⟨m, hs m hm, ht, rfl⟩

/-- **Removing mappings** that are in the table: no deletion names a missing element. -/
theorem Rendered.remove {removed : List FakeMapping} (h : Rendered base mappings exclusions t)
    (hn : (mappings.map FakeMapping.fake).Nodup) (hr : (removed.map FakeMapping.fake).Nodup)
    (hs : ∀ m ∈ removed, m ∈ mappings) :
    ∃ t', runEdits t (removal_edits removed) = some t' ∧
      Rendered base (retained removed mappings) exclusions t' := by
  have hkey : ∀ e ∈ removal_edits removed,
      e.key = .map "fake_to_real" ∨ ∃ target, e.key = .set (fake_set target) := by
    intro e he
    rcases List.mem_cons.mp he with rfl | he
    · exact .inl rfl
    · exact .inr (key_of_mem_target_elements he)
  have hno : onKey (.set "device_exclusions") (removal_edits removed) = [] :=
    Nft.onKey_eq_nil fun e he hek => by
      rcases hkey e he with h | ⟨target, h⟩
      · rw [h] at hek; cases hek
      · rw [h] at hek; exact fake_set_ne_exclusions target (Key.set.inj hek)
  refine h.run (fun e he => .inr (hkey e he)) ?_ ?_ fun target => ?_
  · rw [hno, h.excluded]; rfl
  · rw [h.fake_to_real]; exact runObject_removal_map hn hr hs
  · rw [h.fakes]; exact runObject_removal_set hn hr hs target

end

/-! ## The full script -/

theorem ip_rule_set_ne {index : ℕ} {s : String}
    (h : ¬ "ip_rule_".toList <+: s.toList) : ip_rule_set index ≠ s := by
  rintro rfl
  exact h ⟨_, by rw [ip_rule_set, String.toList_append]⟩

theorem ip_rule_set_inj {i j : ℕ} : ip_rule_set i = ip_rule_set j ↔ i = j := by
  refine ⟨fun h => ?_, fun h => h ▸ rfl⟩
  have hl := congrArg String.toList h
  rw [ip_rule_set, ip_rule_set, String.toList_append, String.toList_append,
    List.append_cancel_left_eq, Nat.toList_repr, Nat.toList_repr] at hl
  rw [← Nat.ofDigitChars_toDigits (b := 10) (n := i) (by decide) (by decide), hl,
    Nat.ofDigitChars_toDigits (by decide) (by decide)]

theorem not_owned_ip_rule_set (index : ℕ) : ¬ Owned (.set (ip_rule_set index)) := by
  rintro (h | h | ⟨target, h⟩)
  · exact ip_rule_set_ne (by decide) (Key.set.inj h)
  · cases h
  · exact ip_rule_set_ne (by cases target <;> decide) (Key.set.inj h)

theorem not_owned_chain (name : String) : ¬ Owned (.chain name) := by
  rintro (h | h | ⟨target, h⟩) <;> cases h

theorem key_of_mem_render_chain {entry : String × Nft.Chain} {e : Edit}
    (h : e ∈ render_chain entry) : e.key = .chain entry.1 := by
  rcases List.mem_cons.mp h with rfl | h
  · rfl
  · obtain ⟨rule, -, rfl⟩ := List.mem_map.mp h
    rfl

theorem key_of_mem_render_ip_rule_set {policy : RoutingPolicy} {entry : ℕ × IpRule} {e : Edit}
    (h : e ∈ render_ip_rule_set policy entry) : e.key = .set (ip_rule_set entry.1) := by
  unfold render_ip_rule_set at h
  split at h
  · cases h
  · rcases List.mem_cons.mp h with rfl | h
    · rfl
    · split_ifs at h
      · cases h
      · rw [List.mem_singleton.mp h]; rfl

section

variable {lan : LanContext} {dns_port : ℕ} {egress : VpnEgress} {policy : RoutingPolicy}
  {panel_ports : PanelPorts} {mappings : List FakeMapping} {exclusions : List MacAddress}
  {t : Table}

theorem not_owned_of_mem_policy_edits {e : Edit}
    (h : e ∈ policy_edits lan dns_port egress policy panel_ports) : ¬ Owned e.key := by
  rcases List.mem_append.mp h with h | h
  · obtain ⟨entry, -, he⟩ := List.mem_flatMap.mp h
    exact key_of_mem_render_ip_rule_set he ▸ not_owned_ip_rule_set _
  · obtain ⟨entry, -, he⟩ := List.mem_flatMap.mp h
    exact key_of_mem_render_chain he ▸ not_owned_chain _

theorem onKey_policy_edits {k : Key} (hk : Owned k) :
    onKey k (policy_edits lan dns_port egress policy panel_ports) = [] :=
  Nft.onKey_eq_nil fun _ he hek => not_owned_of_mem_policy_edits he (hek ▸ hk)

theorem onKey_exclusion_set {k : Key} (hk : k ≠ .set "device_exclusions") :
    onKey k (render_exclusion_set exclusions) = [] :=
  Nft.onKey_eq_nil fun e he hek => hk <| hek ▸ by
    rcases List.mem_cons.mp he with rfl | he
    · rfl
    · exact key_of_mem_add_exclusions he

theorem runObject_table_exclusions :
    runObject (.set "device_exclusions") none
      (onKey _ (table_edits lan dns_port egress policy mappings panel_ports exclusions)) =
        some (some ⟨.ether_addr, (exclusion_elements exclusions).toFinset⟩) := by
  have hobj : onKey (.set "device_exclusions") fake_objects = [] := rfl
  rw [table_edits, Nft.onKey_append, Nft.onKey_append, Nft.onKey_append,
    onKey_policy_edits (.inl rfl), onKey_exclusions_append_mappings, hobj, render_exclusion_set,
    Nft.onKey_set_set, if_pos rfl, List.append_nil, List.append_nil, List.append_nil]
  exact runObject_add_exclusions

theorem runObject_table_map (hn : (mappings.map FakeMapping.fake).Nodup) :
    runObject (.map "fake_to_real") none
      (onKey _ (table_edits lan dns_port egress policy mappings panel_ports exclusions)) =
        some (some (fake_map mappings)) := by
  rw [table_edits, Nft.onKey_append, Nft.onKey_append, Nft.onKey_append,
    onKey_policy_edits (.inr (.inl rfl)), onKey_exclusion_set (by simp), List.append_nil,
    List.nil_append]
  exact @runObject_append_mappings_map [] _ hn

theorem runObject_table_set (target : RouteTarget) :
    runObject (.set (fake_set target)) none
      (onKey _ (table_edits lan dns_port egress policy mappings panel_ports exclusions)) =
        some (some ⟨.ipv4_addr, fake_elems mappings target⟩) := by
  have hobj : onKey (.set (fake_set target)) fake_objects = [.add .ipv4_addr] := by
    cases target <;> rfl
  rw [table_edits, Nft.onKey_append, Nft.onKey_append, Nft.onKey_append,
    onKey_policy_edits (.inr (.inr ⟨target, rfl⟩)),
    onKey_exclusion_set (by simpa using fake_set_ne_exclusions target), hobj, List.append_nil,
    List.nil_append]
  exact @runObject_append_mappings_set [] _ target

theorem onKey_table {k : Key} (hk : ¬ Owned k) :
    onKey k (table_edits lan dns_port egress policy mappings panel_ports exclusions) =
      onKey k (policy_edits lan dns_port egress policy panel_ports) := by
  have hobj : onKey k fake_objects = [] :=
    Nft.onKey_eq_nil fun e he hek => hk (hek ▸ .inr (key_of_mem_fake_objects he))
  have hmap : onKey k (append_mappings mappings) = [] :=
    Nft.onKey_eq_nil fun e he hek => hk (hek ▸ .inr (key_of_mem_append_mappings he))
  have hdev : k ≠ .set "device_exclusions" := fun h => hk (.inl h)
  rw [table_edits, Nft.onKey_append, Nft.onKey_append, Nft.onKey_append,
    onKey_exclusion_set hdev, hobj, hmap]
  rfl

/-- **The full script builds the table** with these mappings and exclusions. -/
theorem runEdits_table (hn : (mappings.map FakeMapping.fake).Nodup) :
    runEdits .empty (table_edits lan dns_port egress policy mappings panel_ports exclusions) =
      some t ↔
      Rendered (policy_edits lan dns_port egress policy panel_ports) mappings exclusions t := by
  rw [Nft.runEdits_iff]
  constructor
  · intro h
    exact ⟨Option.some.inj ((h _).symm.trans runObject_table_exclusions),
      Option.some.inj ((h _).symm.trans (runObject_table_map hn)),
      fun target => Option.some.inj ((h _).symm.trans (runObject_table_set target)),
      fun k hk => onKey_table hk ▸ h k⟩
  · intro h k
    by_cases hk : Owned k
    · obtain rfl | rfl | ⟨target, rfl⟩ := hk
      · rw [h.excluded]; exact runObject_table_exclusions
      · rw [h.fake_to_real]; exact runObject_table_map hn
      · rw [h.fakes]; exact runObject_table_set target
    · rw [onKey_table hk]; exact h.rest k hk

/-! ## The policy's objects -/

theorem policy_chains_nodup :
    ((policy_chains lan dns_port egress policy panel_ports).map Prod.fst).Nodup := by
  unfold policy_chains
  cases egress.active_source <;> split_ifs <;> simp

theorem onKey_chain_sets (name : String) (entries : List (ℕ × IpRule)) :
    onKey (.chain name) (entries.flatMap (render_ip_rule_set policy)) = [] :=
  Nft.onKey_eq_nil fun e he hek => by
    obtain ⟨entry, -, he⟩ := List.mem_flatMap.mp he
    rw [key_of_mem_render_ip_rule_set he] at hek
    cases hek

theorem onKey_set_chains (name : String) (chains : List (String × Nft.Chain)) :
    onKey (.set name) (chains.flatMap render_chain) = [] :=
  Nft.onKey_eq_nil fun e he hek => by
    obtain ⟨entry, -, he⟩ := List.mem_flatMap.mp he
    rw [key_of_mem_render_chain he] at hek
    cases hek

theorem onKey_render_chain (entry : String × Nft.Chain) :
    onKey (.chain entry.1) (render_chain entry) =
      .add entry.2.hook :: entry.2.rules.map .add_rule := by
  rw [render_chain, Nft.onKey_chain_chain, if_pos rfl]
  congr 1
  induction entry.2.rules with
  | nil => rfl
  | cons rule rules ih => rw [List.map_cons, Nft.onKey_chain_chain, if_pos rfl, ih, List.map_cons]

theorem runObject_policy_chain {entry : String × Nft.Chain}
    (h : entry ∈ policy_chains lan dns_port egress policy panel_ports) :
    runObject (.chain entry.1) none
      (onKey _ (policy_edits lan dns_port egress policy panel_ports)) = some (some entry.2) := by
  have hother : ∀ e ∈ policy_chains lan dns_port egress policy panel_ports, e.1 ≠ entry.1 →
      onKey (.chain entry.1) (render_chain e) = [] := fun e _ hne =>
    Nft.onKey_eq_nil fun e' he' hek =>
      hne (Key.chain.inj ((key_of_mem_render_chain he').symm.trans hek))
  rw [policy_edits, Nft.onKey_append, onKey_chain_sets, List.nil_append,
    Nft.onKey_flatMap_single Prod.fst policy_chains_nodup h hother, onKey_render_chain]
  exact Nft.runObject_chain _ _ _

theorem onKey_ip_rule_set (hn : ((enabled_ip_rules policy).map Prod.fst).Nodup)
    {entry : ℕ × IpRule} (h : entry ∈ enabled_ip_rules policy) :
    onKey (.set (ip_rule_set entry.1)) (policy_edits lan dns_port egress policy panel_ports) =
      onKey _ (render_ip_rule_set policy entry) := by
  have hother : ∀ e ∈ enabled_ip_rules policy, e.1 ≠ entry.1 →
      onKey (.set (ip_rule_set entry.1)) (render_ip_rule_set policy e) = [] := fun e _ hne =>
    Nft.onKey_eq_nil fun e' he' hek => hne
      (ip_rule_set_inj.mp (Key.set.inj ((key_of_mem_render_ip_rule_set he').symm.trans hek)))
  rw [policy_edits, Nft.onKey_append, onKey_set_chains, List.append_nil,
    Nft.onKey_flatMap_single Prod.fst hn h hother]

theorem admits_append_from (start end_ : Ipv4Addr) (networks : List Ipv4Net) :
    ∀ e ∈ append_from start end_ networks, Nft.SetType.ipv4_interval.admits e = true := by
  have hi : ∀ a b : Ipv4Addr, Nft.SetType.ipv4_interval.admits (interval a b) = true := by
    intro a b
    unfold interval
    split_ifs <;> rfl
  induction networks generalizing start end_ with
  | nil => simpa [append_from] using hi start end_
  | cons n networks ih =>
    rw [append_from]
    split
    · simpa using ⟨hi start end_, fun e => ih n.network n.broadcast e⟩
    · exact ih start _

theorem runObject_ip_rule_set (hn : ((enabled_ip_rules policy).map Prod.fst).Nodup)
    {entry : ℕ × IpRule} (h : entry ∈ enabled_ip_rules policy) {value : String}
    (hm : entry.2.matcher = .geoIp value) :
    runObject (.set (ip_rule_set entry.1)) none
      (onKey _ (policy_edits lan dns_port egress policy panel_ports)) =
      some (some ⟨.ipv4_interval,
        (append_networks (policy.geodata.ip_networks value)).toFinset⟩) := by
  have hall : (append_networks (policy.geodata.ip_networks value)).all
      Nft.SetType.ipv4_interval.admits = true := by
    rw [List.all_eq_true]
    cases policy.geodata.ip_networks value with
    | nil => simp [append_networks]
    | cons n ns => exact admits_append_from _ _ _
  rw [onKey_ip_rule_set hn h, render_ip_rule_set, hm]
  simp only [Nft.onKey_set_set, if_true]
  cases hnet : policy.geodata.ip_networks value with
  | nil => rfl
  | cons n ns =>
    rw [hnet] at hall
    simp only [List.isEmpty_cons, Bool.false_eq_true, if_false, Nft.onKey_set_set, if_true,
      Nft.onKey_nil, runObject, Key.exec, Nft.SetAction.exec, Option.bind_some, hall]
    simp

/-- **The policy's part of the script succeeds** on every object. -/
theorem policy_edits_isSome (hn : ((enabled_ip_rules policy).map Prod.fst).Nodup) (k : Key) :
    (runObject k none
      (onKey k (policy_edits lan dns_port egress policy panel_ports))).isSome = true := by
  by_cases hk : ∃ e ∈ policy_edits lan dns_port egress policy panel_ports, e.key = k
  · obtain ⟨e, he, rfl⟩ := hk
    rcases List.mem_append.mp he with he | he
    · obtain ⟨entry, hmem, he⟩ := List.mem_flatMap.mp he
      cases hm : entry.2.matcher with
      | cidr value => simp [render_ip_rule_set, hm] at he
      | geoIp value =>
        rw [key_of_mem_render_ip_rule_set he, runObject_ip_rule_set hn hmem hm]
        rfl
    · obtain ⟨entry, hmem, he⟩ := List.mem_flatMap.mp he
      rw [key_of_mem_render_chain he, runObject_policy_chain hmem]
      rfl
  · push Not at hk
    rw [Nft.onKey_eq_nil hk]
    rfl

/-- **The full script succeeds.** -/
theorem exists_rendered (hr : ((enabled_ip_rules policy).map Prod.fst).Nodup)
    (hn : (mappings.map FakeMapping.fake).Nodup) :
    ∃ t, runEdits .empty
      (table_edits lan dns_port egress policy mappings panel_ports exclusions) = some t := by
  refine Nft.runEdits_isSome fun k => ?_
  show (runObject k none _).isSome = true
  by_cases hk : Owned k
  · obtain rfl | rfl | ⟨target, rfl⟩ := hk
    · rw [runObject_table_exclusions]; rfl
    · rw [runObject_table_map hn]; rfl
    · rw [runObject_table_set]; rfl
  · rw [onKey_table hk]
    exact policy_edits_isSome hr k

end

end Gofro.Agent

import GofroRouter.Lib.Nft
import Mathlib.Data.List.Sort

/-!
# nftables: hooks, connections and what leaves the router

A packet meets the filter chains of a hook in the order of their priorities; the first packet of a
connection also meets the nat chains, and the connection keeps the source they give it.

* `hooked`: the chains of a hook in order. `runFilters`, `runSnat`: a packet through them.
* `fence`: a rule that stops packets or lets them go on, with the mark they have.
  **`runFilters_fence`**: a packet that gets through a hook of fences is one that no rule stops, and
  has kept its mark.
* `Conn.leave`: a packet of a tracked connection on its way out; `departures`: a run of packets of
  many connections. **`departures_rule`**: what holds of every packet that leaves.
* **`departures_source`**: all packets of a connection leave with one source.
-/

namespace Nft

open Ipv4

/-! ## Hooks -/

/-- The chains of a type at a hook, by priority. -/
def hooked (type hook : String) (chains : List (String × Chain)) : List String :=
  ((chains.filter fun c => decide (c.2.hook.type = type) && decide (c.2.hook.hook = hook)).insertionSort
    fun a b => a.2.hook.priority ≤ b.2.hook.priority).map Prod.fst

/-- A verdict that ends the packet. -/
def Verdict.stops : Verdict → Bool
  | .drop => true
  | .reject => true
  | _ => false

/-- The filter chains of a hook; a packet that one of them stops is gone. -/
def runFilters (t : Table) : List String → Packet → Option Packet
  | [], p => some p
  | c :: cs, p =>
    match runChain t c p with
    | (q, some v) => if v.stops then none else runFilters t cs q
    | (q, none) => runFilters t cs q

/-- The nat chains of a hook; the first source that one of them gives is taken. -/
def runSnat (t : Table) : List String → Packet → Option Addr
  | [], _ => none
  | c :: cs, p =>
    match (runChain t c p).2 with
    | some (.snat a) => some a
    | _ => runSnat t cs p

/-- A packet but for its marks and its segment size. -/
def Kept (p q : Packet) : Prop := ∃ m c s, q = { p with mark := m, ct_mark := c, maxseg := s }

theorem Kept.trans {p q r : Packet} (h : Kept p q) (h' : Kept q r) : Kept p r := by
  obtain ⟨m, c, s, rfl⟩ := h
  obtain ⟨m', c', s', rfl⟩ := h'
  exact ⟨m', c', s', rfl⟩

/-- A rule changes the marks of a packet and its segment size, nothing else. -/
theorem runRule_kept (t : Table) (p : Packet) (r : Rule) : Kept p (runRule t p r).1 := by
  induction r generalizing p with
  | nil => exact ⟨_, _, _, rfl⟩
  | cons s r ih =>
    cases s with
    | guard m =>
      rw [runRule]
      split_ifs
      · exact ih p
      · exact ⟨_, _, _, rfl⟩
    | meta_mark_set keep bits => exact Kept.trans ⟨_, _, _, rfl⟩ (ih _)
    | ct_mark_set keep bits => exact Kept.trans ⟨_, _, _, rfl⟩ (ih _)
    | maxseg_set n => exact Kept.trans ⟨_, _, _, rfl⟩ (ih _)
    | dnat_map m => exact ⟨_, _, _, rfl⟩
    | verdict v => exact ⟨_, _, _, rfl⟩

theorem runRules_kept (t : Table) (p : Packet) (rs : List Rule) : Kept p (runRules t p rs).1 := by
  induction rs generalizing p with
  | nil => exact ⟨_, _, _, rfl⟩
  | cons r rs ih =>
    have h := runRule_kept t p r
    rw [runRules]
    rcases hr : runRule t p r with ⟨q, _ | v⟩ <;> rw [hr] at h
    · exact h.trans (ih q)
    · exact h

/-! ## Fences -/

/-- A packet but for its connection's mark and its segment size. -/
def Alike (p q : Packet) : Prop := ∃ c s, q = { p with ct_mark := c, maxseg := s }

theorem Alike.refl (p : Packet) : Alike p p := ⟨_, _, rfl⟩

theorem Alike.trans {p q r : Packet} (h : Alike p q) (h' : Alike q r) : Alike p r := by
  obtain ⟨c, s, rfl⟩ := h
  obtain ⟨c', s', rfl⟩ := h'
  exact ⟨c', s', rfl⟩

theorem Alike.mark {p q : Packet} (h : Alike p q) : q.mark = p.mark := by
  obtain ⟨c, s, rfl⟩ := h
  rfl

theorem Alike.oifname {p q : Packet} (h : Alike p q) : q.oifname = p.oifname := by
  obtain ⟨c, s, rfl⟩ := h
  rfl

/-- A match that does not look at the segment size. -/
def Match.plain : Match → Bool
  | .maxseg_gt _ => false
  | _ => true

theorem Match.holds_alike {t : Table} {p q : Packet} (h : Alike p q) {m : Match}
    (hm : m.plain = true) : m.holds t q = m.holds t p := by
  obtain ⟨c, s, rfl⟩ := h
  cases m with
  | maxseg_gt n => cases hm
  | ip_daddr e => rfl
  | _ => rfl

/-- A statement that leaves the mark as it is, and stops the packet if it ends it. -/
def Stmt.fence : Stmt → Bool
  | .guard _ => true
  | .ct_mark_set _ _ => true
  | .maxseg_set _ => true
  | .verdict v => v.stops
  | _ => false

/-- A rule that stops packets or lets them go on with their mark. -/
def fence (r : Rule) : Bool := r.all Stmt.fence

/-- A verdict on the packets that all of `ms` match. -/
def guarded (ms : List Match) (v : Verdict) : Rule := ms.map Stmt.guard ++ [.verdict v]

theorem runRule_fence {t : Table} {p : Packet} {r : Rule} (hr : fence r = true) :
    Alike p (runRule t p r).1 ∧ ∀ v ∈ (runRule t p r).2, v.stops = true := by
  induction r generalizing p with
  | nil => exact ⟨.refl p, by simp [runRule]⟩
  | cons s r ih =>
    rw [fence, List.all_cons, Bool.and_eq_true] at hr
    obtain ⟨hs, hr⟩ := hr
    cases s with
    | guard m =>
      rw [runRule]
      split_ifs
      · exact ih hr
      · exact ⟨.refl p, by simp⟩
    | ct_mark_set keep bits =>
      obtain ⟨ha, hv⟩ := ih (p := { p with ct_mark := (p.ct_mark &&& keep) ||| bits }) hr
      exact ⟨Alike.trans ⟨_, _, rfl⟩ ha, hv⟩
    | maxseg_set n =>
      obtain ⟨ha, hv⟩ := ih (p := { p with maxseg := some n }) hr
      exact ⟨Alike.trans ⟨_, _, rfl⟩ ha, hv⟩
    | verdict v =>
      refine ⟨.refl p, fun w hw => ?_⟩
      cases hw
      exact hs
    | meta_mark_set keep bits => cases hs
    | dnat_map m => cases hs

theorem runRule_guarded {t : Table} {p : Packet} {ms : List Match} {v : Verdict}
    (h : ∀ m ∈ ms, m.holds t p = true) : runRule t p (guarded ms v) = (p, some v) := by
  induction ms with
  | nil => rfl
  | cons m ms ih =>
    rw [guarded, List.map_cons, List.cons_append, runRule_guard_true (h m List.mem_cons_self)]
    exact ih fun m hm => h m (List.mem_cons_of_mem _ hm)

theorem runRule_not_guarded {t : Table} {p : Packet} {ms : List Match} (v : Verdict)
    (h : ∃ m ∈ ms, m.holds t p = false) : runRule t p (guarded ms v) = (p, none) := by
  induction ms with
  | nil => simp at h
  | cons m ms ih =>
    rw [guarded, List.map_cons, List.cons_append]
    cases hm : m.holds t p with
    | false => exact runRule_guard_false hm _
    | true =>
      rw [runRule_guard_true hm]
      obtain ⟨n, hn, hfalse⟩ := h
      rcases List.mem_cons.mp hn with rfl | hn
      · rw [hm] at hfalse
        cases hfalse
      · exact ih ⟨n, hn, hfalse⟩

theorem runRules_guarded (t : Table) (p : Packet) (mss : List (List Match)) (v : Verdict) :
    runRules t p (mss.map fun ms => guarded ms v) =
      (p, if ∃ ms ∈ mss, ∀ m ∈ ms, m.holds t p = true then some v else none) := by
  induction mss with
  | nil => simp [runRules]
  | cons ms mss ih =>
    rw [List.map_cons, runRules]
    by_cases h : ∀ m ∈ ms, m.holds t p = true
    · rw [runRule_guarded h, if_pos ⟨ms, List.mem_cons_self, h⟩]
    · rw [runRule_not_guarded v (by simpa using h)]
      simp only [ih, List.mem_cons, exists_eq_or_imp, h, false_or]

theorem runRules_fence {t : Table} {p : Packet} {rs : List Rule} (hf : ∀ r ∈ rs, fence r = true) :
    Alike p (runRules t p rs).1 ∧ (∀ v ∈ (runRules t p rs).2, v.stops = true) ∧
      ((runRules t p rs).2 = none → ∀ ms v, guarded ms v ∈ rs → (∀ m ∈ ms, m.plain = true) →
        ∃ m ∈ ms, m.holds t p = false) := by
  induction rs generalizing p with
  | nil => exact ⟨.refl p, by simp [runRules], by simp⟩
  | cons r rs ih =>
    obtain ⟨ha, hv⟩ := runRule_fence (t := t) (p := p) (hf r List.mem_cons_self)
    rw [runRules]
    rcases hr : runRule t p r with ⟨q, _ | v⟩
    · rw [hr] at ha
      obtain ⟨ha', hv', hstop⟩ := ih (p := q) fun r hr => hf r (List.mem_cons_of_mem _ hr)
      refine ⟨ha.trans ha', hv', fun hn ms v hmem hp => ?_⟩
      rcases List.mem_cons.mp hmem with rfl | hmem
      · by_contra hall
        have hall : ∀ m ∈ ms, m.holds t p = true := by simpa using hall
        rw [runRule_guarded hall] at hr
        cases hr
      · obtain ⟨m, hm, hfalse⟩ := hstop hn ms v hmem hp
        exact ⟨m, hm, by rwa [Match.holds_alike ha (hp m hm)] at hfalse⟩
    · rw [hr] at ha hv
      exact ⟨ha, hv, by simp⟩

/-- The rules under a name. -/
def rules (t : Table) (name : String) : List Rule := ((t.chain name).map Chain.rules).getD []

theorem runChain_eq (t : Table) (name : String) (p : Packet) :
    runChain t name p = runRules t p (rules t name) := by
  rw [runChain, rules]
  cases t.chain name <;> rfl

theorem runChain_kept (t : Table) (name : String) (p : Packet) :
    Kept p (runChain t name p).1 := by
  rw [runChain_eq]
  exact runRules_kept t p _

theorem runFilters_single {t : Table} {c : String} {p q : Packet}
    (h : runFilters t [c] p = some q) :
    q = (runChain t c p).1 ∧ ∀ v ∈ (runChain t c p).2, v.stops = false := by
  rw [runFilters] at h
  rcases hr : runChain t c p with ⟨r, _ | v⟩
  · rw [hr] at h
    exact ⟨(Option.some.inj h).symm, by simp⟩
  · rw [hr] at h
    cases hv : v.stops with
    | true => simp [hv] at h
    | false =>
      simp only [hv, Bool.false_eq_true, if_false, runFilters, Option.some.injEq] at h
      exact ⟨h.symm, by simp [hv]⟩

/-- **A packet that gets through a hook of fences** has its mark still, and no rule of the hook
stops it. -/
theorem runFilters_fence {t : Table} {cs : List String} {p q : Packet}
    (hf : ∀ c ∈ cs, ∀ r ∈ rules t c, fence r = true) (h : runFilters t cs p = some q) :
    Alike p q ∧ ∀ c ∈ cs, ∀ ms v, guarded ms v ∈ rules t c → (∀ m ∈ ms, m.plain = true) →
      ∃ m ∈ ms, m.holds t p = false := by
  induction cs generalizing p with
  | nil =>
    cases h
    exact ⟨.refl _, by simp⟩
  | cons c cs ih =>
    obtain ⟨ha, hv, hstop⟩ := runRules_fence (t := t) (p := p) (hf c List.mem_cons_self)
    rw [runFilters, runChain_eq] at h
    rcases hr : runRules t p (rules t c) with ⟨r, _ | v⟩
    · rw [hr] at h ha hstop
      obtain ⟨ha', hrest⟩ := ih (fun c hc => hf c (List.mem_cons_of_mem _ hc)) h
      refine ⟨ha.trans ha', fun d hd ms v hmem hm => ?_⟩
      rcases List.mem_cons.mp hd with rfl | hd
      · exact hstop rfl ms v hmem hm
      · obtain ⟨m, hin, hfalse⟩ := hrest d hd ms v hmem hm
        exact ⟨m, hin, by rwa [Match.holds_alike ha (hm m hin)] at hfalse⟩
    · rw [hr] at h hv
      have hs : v.stops = true := hv v rfl
      simp [hs] at h

/-! ## Connections -/

/-- A tracked connection: the source of its packets, and what it was translated to when the first
of them left. -/
structure Conn where
  source : Addr
  binding : Option Addr
deriving DecidableEq

namespace Conn

variable (c : Conn)

/-- Where replies go. -/
def replies : Addr := c.binding.getD c.source

/-- A packet of the connection, as the rules see it. -/
def view (p : Packet) : Packet :=
  { p with ct_confirmed := c.binding.isSome, ct_reply_daddr := c.replies }

end Conn

/-- A packet that has left. -/
structure Sent where
  device : String
  source : Addr
  mark : Mark
deriving DecidableEq

/-- A packet on its way out, through the filter chains of its hook and, if it is the first of its
connection, the nat chains behind them. `other` is the source it has without them. -/
def Conn.leave (t : Table) (filters nats : List String) (other : Addr) (c : Conn) (p : Packet) :
    Conn × Option Sent :=
  match runFilters t filters p with
  | none => (c, none)
  | some q =>
    let source := c.binding.getD ((runSnat t nats q).getD other)
    ({ c with binding := some source }, some ⟨q.oifname, source, q.mark⟩)

/-- What a packet does to its connection, whatever happens to it on its way. -/
structure Conn.Passes (c : Conn) (r : Conn × Option Sent) : Prop where
  source : r.1.source = c.source
  stopped : r.2 = none → r.1 = c
  sent : ∀ s ∈ r.2, r.1.binding = some s.source ∧ ∀ a ∈ c.binding, s.source = a

theorem Conn.Passes.refl (c : Conn) : c.Passes (c, none) :=
  ⟨rfl, fun _ => rfl, by simp⟩

theorem Conn.leave_passes (t : Table) (filters nats : List String) (other : Addr) (c : Conn)
    (p : Packet) : c.Passes (c.leave t filters nats other p) := by
  rw [leave]
  cases runFilters t filters p with
  | none => exact .refl c
  | some q =>
    refine ⟨rfl, by simp, fun s hs => ?_⟩
    cases hs
    refine ⟨rfl, fun a ha => ?_⟩
    have ha : c.binding = some a := ha
    simp [ha]

/-! ## Runs -/

section

variable {ι ε : Type} [DecidableEq ι] (conn : ε → ι) (pass : ε → Conn → Conn × Option Sent)

/-- The packets that leave in a run, each with the event that sent it; `pass` says what an event
does to its connection. -/
def departures : (ι → Conn) → List ε → List (ε × Sent)
  | _, [] => []
  | cs, e :: es =>
    let r := pass e (cs (conn e))
    (r.2.map fun s => (e, s)).toList ++ departures (Function.update cs (conn e) r.1) es

variable {conn pass}

theorem mem_departures_cons {cs : ι → Conn} {e : ε} {es : List ε} {d : ε × Sent} :
    d ∈ departures conn pass cs (e :: es) ↔
      (d.1 = e ∧ (pass e (cs (conn e))).2 = some d.2) ∨
        d ∈ departures conn pass (Function.update cs (conn e) (pass e (cs (conn e))).1) es := by
  rw [departures, List.mem_append]
  refine or_congr_left ?_
  rcases d with ⟨f, s⟩
  cases (pass e (cs (conn e))).2 with
  | none => simp
  | some s' =>
    simp only [Option.map_some, Option.toList_some, List.mem_singleton, Prod.mk.injEq,
      Option.some.injEq]
    exact and_congr_right fun _ => eq_comm

/-- **The run rule**: what every event keeps of its connection holds at every departure. -/
theorem departures_rule {Keeps : ι → Conn → Prop} {Ok : ε → Prop} {Good : ε → Sent → Prop}
    (hstep : ∀ e c, Ok e → Keeps (conn e) c →
      Keeps (conn e) (pass e c).1 ∧ ∀ s ∈ (pass e c).2, Good e s)
    {cs : ι → Conn} (hcs : ∀ i, Keeps i (cs i)) {es : List ε} (hes : ∀ e ∈ es, Ok e) :
    ∀ d ∈ departures conn pass cs es, Good d.1 d.2 := by
  induction es generalizing cs with
  | nil => simp [departures]
  | cons e es ih =>
    obtain ⟨hk, hg⟩ := hstep e (cs (conn e)) (hes e List.mem_cons_self) (hcs _)
    intro d hd
    rcases mem_departures_cons.mp hd with ⟨he, hs⟩ | hd
    · exact he ▸ hg d.2 hs
    · refine ih (fun i => ?_) (fun e he => hes e (List.mem_cons_of_mem _ he)) d hd
      by_cases hi : i = conn e
      · subst hi
        rwa [Function.update_self]
      · rw [Function.update_of_ne hi]
        exact hcs i

theorem departures_bound (hp : ∀ e (c : Conn), c.Passes (pass e c)) {cs : ι → Conn} {es : List ε} {i : ι}
    {a : Addr} (hb : (cs i).binding = some a) :
    ∀ d ∈ departures conn pass cs es, conn d.1 = i → d.2.source = a := by
  induction es generalizing cs with
  | nil => simp [departures]
  | cons e es ih =>
    intro d hd hi
    have hpass := hp e (cs (conn e))
    rcases mem_departures_cons.mp hd with ⟨he, hs⟩ | hd
    · rw [he] at hi
      exact (hpass.sent _ hs).2 a (by rw [hi, hb]; rfl)
    · refine ih ?_ d hd hi
      by_cases he : i = conn e
      · subst he
        rw [Function.update_self]
        cases hs : (pass e (cs (conn e))).2 with
        | none => rw [hpass.stopped hs, hb]
        | some s =>
          obtain ⟨hbind, hsame⟩ := hpass.sent s hs
          rw [hbind, hsame a hb]
      · rw [Function.update_of_ne he, hb]

/-- **All packets of a connection leave with one source.** -/
theorem departures_source (hp : ∀ e (c : Conn), c.Passes (pass e c)) {cs : ι → Conn} {es : List ε}
    {d d' : ε × Sent} (hd : d ∈ departures conn pass cs es) (hd' : d' ∈ departures conn pass cs es)
    (hi : conn d.1 = conn d'.1) : d.2.source = d'.2.source := by
  induction es generalizing cs with
  | nil => simp [departures] at hd
  | cons e es ih =>
    have hpass := hp e (cs (conn e))
    -- the first packet of the two binds the connection
    have hfirst : ∀ {x y : ε × Sent}, x.1 = e → (pass e (cs (conn e))).2 = some x.2 →
        y ∈ departures conn pass (Function.update cs (conn e) (pass e (cs (conn e))).1) es →
        conn x.1 = conn y.1 → x.2.source = y.2.source := by
      intro x y hx hs hy hxy
      refine (departures_bound hp (i := conn e) ?_ y hy (by rw [← hxy, hx])).symm
      rw [Function.update_self]
      exact (hpass.sent _ hs).1
    rcases mem_departures_cons.mp hd with ⟨he, hs⟩ | hd <;>
      rcases mem_departures_cons.mp hd' with ⟨he', hs'⟩ | hd'
    · exact congrArg Sent.source (Option.some.inj (hs.symm.trans hs'))
    · exact hfirst he hs hd' hi
    · exact (hfirst he' hs' hd hi.symm).symm
    · exact ih hd hd'

end

end Nft

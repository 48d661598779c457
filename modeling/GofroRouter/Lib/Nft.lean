import GofroRouter.Lib.Ipv4

/-!
# nftables: scripts, tables and rule evaluation

The part of nftables a generated ruleset uses.

* `Packet`, `Match`, `Stmt`, `Rule`: what a rule sees and does; `runRules` evaluates the rules of a
  chain in order, up to the first verdict.
* `Table`: named sets, maps and chains. `Edit` changes one of them, `Command` one table, `run` a
  whole script: either every command succeeds or the kernel keeps its tables.
* **`runEdits_iff`**: a script of edits succeeds, with a given result, exactly when it does so on
  every object separately. `run_load`: a script that destroys and recreates its table gives a result
  that does not depend on the kernel before.
* `runRules_append`, `runRules_skip`, **`runRules_classify`**: a block of rules that only mark
  unmarked packets gives the mark of the first rule that matches.
-/

namespace Nft

open Ipv4

/-- The mark of a packet or a connection. -/
abbrev Mark := BitVec 32
abbrev Ether := BitVec 48

/-! ## Packets -/

/-- The version of IP. -/
inductive NfProto | ipv4 | ipv6
deriving DecidableEq

/-- The protocol above it. -/
inductive L4Proto | tcp | udp | other (number : ℕ)
deriving DecidableEq

/-- The direction of a packet, as conntrack sees it. -/
inductive CtDirection | original | reply
deriving DecidableEq

/-- A packet with its routing and conntrack metadata. -/
structure Packet where
  iifname : String
  oifname : String
  nfproto : NfProto
  ether_saddr : Ether
  daddr : Addr
  /-- `fib daddr type local` -/
  daddr_local : Bool
  l4proto : L4Proto
  dport : ℕ
  /-- `tcp flags & (syn | rst) == syn` -/
  tcp_syn : Bool
  maxseg : Option ℕ
  ct_direction : CtDirection
  ct_confirmed : Bool
  ct_reply_daddr : Addr
  mark : Mark
  ct_mark : Mark
deriving DecidableEq

/-! ## Rules -/

/-- A comparison, `==` or `!=`. -/
inductive Op | eq | ne
deriving DecidableEq

/-- What the comparison makes of a test. -/
def Op.test : Op → Bool → Bool
  | .eq, b => b
  | .ne, b => !b

/-- The right-hand side of an `ip daddr` match. -/
inductive AddrExpr
  | host (a : Addr)
  | net (n : Net)
  /-- a prefix as it stands in the script -/
  | text (s : String)
  | named (set : String)
  | anonymous (ns : List Net)
deriving DecidableEq

/-- What a rule may look at. -/
inductive Match
  | iifname (op : Op) (device : String)
  | oifname (op : Op) (device : String)
  | nfproto (p : NfProto)
  | l4proto (op : Op) (ps : List L4Proto)
  | tcp_dport (op : Op) (ports : List ℕ)
  | udp_dport (ports : List ℕ)
  | th_dport (ports : List ℕ)
  | ether_saddr (op : Op) (set : String)
  | ip_daddr (e : AddrExpr)
  | fib_daddr_local
  | ct_direction (d : CtDirection)
  | ct_confirmed
  | ct_reply_daddr (op : Op) (n : Net)
  | meta_mark (mask : Mark) (op : Op) (value : Mark)
  | tcp_syn
  | maxseg_gt (size : ℕ)
deriving DecidableEq

/-- How a rule may end a chain. -/
inductive Verdict
  | accept
  | drop
  | ret
  | reject
  | dnat (addr : Addr) (port : Option ℕ)
  | redirect (port : ℕ)
  | snat (addr : Addr)
deriving DecidableEq

/-- One part of a rule, read from left to right. -/
inductive Stmt
  | guard (m : Match)
  /-- `meta mark set (meta mark & keep) | bits` -/
  | meta_mark_set (keep bits : Mark)
  /-- `ct mark set (ct mark & keep) | bits` -/
  | ct_mark_set (keep bits : Mark)
  | maxseg_set (size : ℕ)
  /-- `dnat ip to ip daddr map @map`; no entry means no match -/
  | dnat_map (map : String)
  | verdict (v : Verdict)
deriving DecidableEq

/-- The parts of a rule; a guard that fails ends it. -/
abbrev Rule := List Stmt

/-! ## Tables -/

/-- A set element: an address, a range of addresses, or a hardware address. -/
inductive Elem
  | addr (a : Addr)
  | range (lo hi : Addr)
  | ether (m : Ether)
deriving DecidableEq

/-- Whether an address is in the element. -/
def Elem.covers : Elem → Addr → Bool
  | .addr b, a => decide (a = b)
  | .range lo hi, a => decide (lo ≤ a) && decide (a ≤ hi)
  | .ether _, _ => false

/-- What a set is declared for. -/
inductive SetType | ipv4_addr | ipv4_interval | ether_addr
deriving DecidableEq

/-- Intervals need a set that is declared for them. -/
def SetType.admits : SetType → Elem → Bool
  | .ipv4_addr, .addr _ => true
  | .ipv4_interval, .addr _ => true
  | .ipv4_interval, .range _ _ => true
  | .ether_addr, .ether _ => true
  | _, _ => false

/-- A set with its type. -/
structure NSet where
  type : SetType
  elems : Finset Elem
deriving DecidableEq

/-- A map from addresses to addresses. -/
abbrev AddrMap := Addr → Option Addr

/-- Where a base chain hooks in, as its declaration says; every policy is `accept`. -/
structure Hook where
  type : String
  hook : String
  priority : ℤ
deriving DecidableEq

/-- The rules at a hook. -/
structure Chain where
  hook : Hook
  rules : List Rule
deriving DecidableEq

/-- The name of an object of a table. -/
inductive Key
  | set (name : String)
  | map (name : String)
  | chain (name : String)
deriving DecidableEq

/-- What stands under a name, by its kind. -/
abbrev Key.Object : Key → Type
  | .set _ => NSet
  | .map _ => AddrMap
  | .chain _ => Chain

/-- A table: its objects by name. -/
abbrev Table := (k : Key) → Option k.Object

/-- A table that has just been added. -/
def Table.empty : Table := fun _ => none

/-- The set with a name. -/
def Table.set (t : Table) (name : String) : Option NSet := t (.set name)
def Table.map (t : Table) (name : String) : Option AddrMap := t (.map name)
def Table.chain (t : Table) (name : String) : Option Chain := t (.chain name)

/-! ## Evaluation -/

/-- What the expression says of an address, with the sets of the table. -/
def AddrExpr.holds (t : Table) : AddrExpr → Addr → Bool
  | .host b, a => decide (a = b)
  | .net n, a => n.contains a
  | .text s, a => (Net.ofString? s).any (·.contains a)
  | .named name, a => (t.set name).any fun s => decide (∃ e ∈ s.elems, e.covers a = true)
  | .anonymous ns, a => ns.any (·.contains a)

/-- What a guard says of a packet. -/
def Match.holds (t : Table) (p : Packet) : Match → Bool
  | .iifname op d => op.test (decide (p.iifname = d))
  | .oifname op d => op.test (decide (p.oifname = d))
  | .nfproto q => decide (p.nfproto = q)
  | .l4proto op ps => op.test (decide (p.l4proto ∈ ps))
  | .tcp_dport op ports => decide (p.l4proto = .tcp) && op.test (decide (p.dport ∈ ports))
  | .udp_dport ports => decide (p.l4proto = .udp) && decide (p.dport ∈ ports)
  | .th_dport ports => decide (p.dport ∈ ports)
  | .ether_saddr op name =>
    op.test ((t.set name).any fun s => decide (Elem.ether p.ether_saddr ∈ s.elems))
  | .ip_daddr e => decide (p.nfproto = .ipv4) && e.holds t p.daddr
  | .fib_daddr_local => p.daddr_local
  | .ct_direction d => decide (p.ct_direction = d)
  | .ct_confirmed => p.ct_confirmed
  | .ct_reply_daddr op n => op.test (n.contains p.ct_reply_daddr)
  | .meta_mark mask op v => op.test (decide (p.mark &&& mask = v))
  | .tcp_syn => p.tcp_syn
  | .maxseg_gt n => p.maxseg.any fun m => decide (n < m)

/-- One rule: the packet after its statements, and its verdict if it reaches one. -/
def runRule (t : Table) : Packet → Rule → Packet × Option Verdict
  | p, [] => (p, none)
  | p, .guard m :: r => if m.holds t p then runRule t p r else (p, none)
  | p, .meta_mark_set keep bits :: r => runRule t { p with mark := (p.mark &&& keep) ||| bits } r
  | p, .ct_mark_set keep bits :: r =>
    runRule t { p with ct_mark := (p.ct_mark &&& keep) ||| bits } r
  | p, .maxseg_set n :: r => runRule t { p with maxseg := some n } r
  | p, .dnat_map name :: _ =>
    (p, ((t.map name).bind fun m => m p.daddr).map fun a => .dnat a none)
  | p, .verdict v :: _ => (p, some v)

/-- The rules of a chain, up to the first verdict. -/
def runRules (t : Table) : Packet → List Rule → Packet × Option Verdict
  | p, [] => (p, none)
  | p, r :: rs =>
    match runRule t p r with
    | (p, some v) => (p, some v)
    | (p, none) => runRules t p rs

/-- A base chain of a table with policy `accept`. -/
def runChain (t : Table) (name : String) (p : Packet) : Packet × Option Verdict :=
  match t.chain name with
  | some c => runRules t p c.rules
  | none => (p, none)

/-! ## Edits -/

/-- What a script does to a set. -/
inductive SetAction
  | add (type : SetType)
  | add_elements (es : List Elem)
  | delete_elements (es : List Elem)
  | flush

/-- What a script does to a map. -/
inductive MapAction
  | add
  | add_elements (ps : List (Addr × Addr))
  | delete_elements (ks : List Addr)

/-- What a script does to a chain. -/
inductive ChainAction
  | add (hook : Hook)
  | add_rule (r : Rule)

/-- Delete elements one after the other; each must be there. -/
def deleteElems : Finset Elem → List Elem → Option (Finset Elem)
  | s, [] => some s
  | s, e :: es => if e ∈ s then deleteElems (s.erase e) es else none

/-- Add pairs one after the other; a key already mapped elsewhere is an error. -/
def insertPairs : AddrMap → List (Addr × Addr) → Option AddrMap
  | m, [] => some m
  | m, (a, b) :: ps =>
    match m a with
    | none => insertPairs (Function.update m a (some b)) ps
    | some c => if c = b then insertPairs m ps else none

/-- Delete keys one after the other; each must be there. -/
def deleteKeys : AddrMap → List Addr → Option AddrMap
  | m, [] => some m
  | m, a :: ks =>
    match m a with
    | none => none
    | some _ => deleteKeys (Function.update m a none) ks

/-- Adding a set again is no error, if its type is the same. -/
def SetAction.exec : SetAction → Option NSet → Option NSet
  | .add type, none => some ⟨type, ∅⟩
  | .add type, some s => if s.type = type then some s else none
  | .add_elements es, some s =>
    if es.all s.type.admits then some { s with elems := s.elems ∪ es.toFinset } else none
  | .delete_elements es, some s => (deleteElems s.elems es).map fun es => { s with elems := es }
  | .flush, some s => some { s with elems := ∅ }
  | _, none => none

/-- As for sets; a key may not be added with another value. -/
def MapAction.exec : MapAction → Option AddrMap → Option AddrMap
  | .add, none => some fun _ => none
  | .add, some m => some m
  | .add_elements ps, some m => insertPairs m ps
  | .delete_elements ks, some m => deleteKeys m ks
  | _, none => none

/-- Rules are added at the end. -/
def ChainAction.exec : ChainAction → Option Chain → Option Chain
  | .add hook, none => some ⟨hook, []⟩
  | .add hook, some c => if c.hook = hook then some c else none
  | .add_rule r, some c => some { c with rules := c.rules ++ [r] }
  | .add_rule _, none => none

abbrev Key.Action : Key → Type
  | .set _ => SetAction
  | .map _ => MapAction
  | .chain _ => ChainAction

/-- The action on the object under a name. -/
def Key.exec : (k : Key) → k.Action → Option k.Object → Option k.Object
  | .set _ => SetAction.exec
  | .map _ => MapAction.exec
  | .chain _ => ChainAction.exec

/-- A change of one object of a table. -/
structure Edit where
  key : Key
  action : key.Action

namespace Edit

def set (name : String) (a : SetAction) : Edit := ⟨.set name, a⟩
def map (name : String) (a : MapAction) : Edit := ⟨.map name, a⟩
def chain (name : String) (a : ChainAction) : Edit := ⟨.chain name, a⟩

/-- An edit changes one object of its table. -/
def exec (e : Edit) (t : Table) : Option Table :=
  (e.key.exec e.action (t e.key)).map fun o => Function.update t e.key (some o)

end Edit

/-- One edit after the other; the first one that fails ends the script. -/
def runEdits : Table → List Edit → Option Table
  | t, [] => some t
  | t, e :: es => (e.exec t).bind fun t => runEdits t es

/-! ## Scripts -/

/-- What a command does to its table. -/
inductive Action
  /-- `destroy table`, which does not fail on a missing table -/
  | destroy
  /-- `add table`, which keeps an existing one -/
  | create
  | edit (e : Edit)

/-- A line of a script. -/
structure Command where
  table : String
  action : Action

/-- The tables of the kernel, by name. -/
abbrev Kernel := String → Option Table

/-- An edit needs the table to be there. -/
def Action.exec : Action → Option Table → Option (Option Table)
  | .destroy, _ => some none
  | .create, o => some (some (o.getD .empty))
  | .edit e, some t => (e.exec t).map some
  | .edit _, none => none

/-- A command changes one table of the kernel. -/
def Command.exec (c : Command) (k : Kernel) : Option Kernel :=
  (c.action.exec (k c.table)).map fun o => Function.update k c.table o

/-- **A script is one transaction**: the new kernel, if every command succeeds. -/
def run : Kernel → List Command → Option Kernel
  | k, [] => some k
  | k, c :: cs => (c.exec k).bind fun k => run k cs

/-- A script that edits one table. -/
def edits (table : String) (es : List Edit) : List Command := es.map fun e => ⟨table, .edit e⟩

/-- A script that replaces one table. -/
def load (table : String) (es : List Edit) : List Command :=
  ⟨table, .destroy⟩ :: ⟨table, .create⟩ :: edits table es

theorem run_append (k : Kernel) (as bs : List Command) :
    run k (as ++ bs) = (run k as).bind fun k => run k bs := by
  induction as generalizing k with
  | nil => rfl
  | cons a as ih =>
    simp only [List.cons_append, run]
    cases a.exec k with
    | none => rfl
    | some k => exact ih k

theorem run_edits (k : Kernel) (table : String) (es : List Edit) :
    run k (edits table es) = match k table with
      | none => if es = [] then some k else none
      | some t => (runEdits t es).map fun t => Function.update k table (some t) := by
  induction es generalizing k with
  | nil =>
    cases h : k table with
    | none => rfl
    | some t =>
      simp only [edits, List.map_nil, run, runEdits, Option.map_some]
      rw [← h, Function.update_eq_self]
  | cons e es ih =>
    simp only [edits, List.map_cons, run, Command.exec]
    cases h : k table with
    | none => rfl
    | some t =>
      simp only [Action.exec, runEdits]
      cases e.exec t with
      | none => rfl
      | some t' =>
        have := ih (Function.update k table (some t'))
        simp only [edits, Function.update_self, Function.update_idem] at this
        simpa using this

/-- **A script that replaces its table does not depend on the kernel before.** -/
theorem run_load (k : Kernel) (table : String) (es : List Edit) :
    run k (load table es) =
      (runEdits .empty es).map fun t => Function.update k table (some t) := by
  simp only [load, run, Command.exec, Action.exec, Option.map_some, Option.bind_some,
    Function.update_self, Function.update_idem, Option.getD_none]
  rw [run_edits]
  simp only [Function.update_self, Function.update_idem]

/-! ## One object at a time -/

/-- The actions of a script on one object. -/
def onKey (k : Key) : List Edit → List k.Action
  | [] => []
  | e :: es => if h : e.key = k then h ▸ e.action :: onKey k es else onKey k es

/-- A list of actions on one object. -/
def runObject (k : Key) : Option k.Object → List k.Action → Option (Option k.Object)
  | o, [] => some o
  | o, a :: as => (k.exec a o).bind fun o => runObject k (some o) as

@[simp] theorem onKey_nil (k : Key) : onKey k [] = [] := rfl

theorem onKey_self (e : Edit) (es : List Edit) :
    onKey e.key (e :: es) = e.action :: onKey e.key es := by
  rw [onKey, dif_pos rfl]

theorem onKey_ne {k : Key} {e : Edit} (h : e.key ≠ k) (es : List Edit) :
    onKey k (e :: es) = onKey k es := by
  rw [onKey, dif_neg h]

@[simp] theorem onKey_append (k : Key) (as bs : List Edit) :
    onKey k (as ++ bs) = onKey k as ++ onKey k bs := by
  induction as with
  | nil => rfl
  | cons a as ih =>
    by_cases h : a.key = k
    · subst h
      rw [List.cons_append, onKey_self, onKey_self, ih, List.cons_append]
    · rw [List.cons_append, onKey_ne h, onKey_ne h, ih]

@[simp] theorem onKey_set_set (s name : String) (a : SetAction) (es : List Edit) :
    onKey (.set s) (.set name a :: es) =
      if name = s then a :: onKey (.set s) es else onKey (.set s) es := by
  by_cases h : name = s
  · subst h
    rw [if_pos rfl]
    exact onKey_self (.set name a) es
  · rw [if_neg h, onKey_ne (by simpa [Edit.set] using h)]

@[simp] theorem onKey_map_map (s name : String) (a : MapAction) (es : List Edit) :
    onKey (.map s) (.map name a :: es) =
      if name = s then a :: onKey (.map s) es else onKey (.map s) es := by
  by_cases h : name = s
  · subst h
    rw [if_pos rfl]
    exact onKey_self (.map name a) es
  · rw [if_neg h, onKey_ne (by simpa [Edit.map] using h)]

@[simp] theorem onKey_chain_chain (s name : String) (a : ChainAction) (es : List Edit) :
    onKey (.chain s) (.chain name a :: es) =
      if name = s then a :: onKey (.chain s) es else onKey (.chain s) es := by
  by_cases h : name = s
  · subst h
    rw [if_pos rfl]
    exact onKey_self (.chain name a) es
  · rw [if_neg h, onKey_ne (by simpa [Edit.chain] using h)]

@[simp] theorem onKey_set_map (s name : String) (a : MapAction) (es : List Edit) :
    onKey (.set s) (.map name a :: es) = onKey (.set s) es := onKey_ne (by simp [Edit.map]) es

@[simp] theorem onKey_set_chain (s name : String) (a : ChainAction) (es : List Edit) :
    onKey (.set s) (.chain name a :: es) = onKey (.set s) es := onKey_ne (by simp [Edit.chain]) es

@[simp] theorem onKey_map_set (s name : String) (a : SetAction) (es : List Edit) :
    onKey (.map s) (.set name a :: es) = onKey (.map s) es := onKey_ne (by simp [Edit.set]) es

@[simp] theorem onKey_map_chain (s name : String) (a : ChainAction) (es : List Edit) :
    onKey (.map s) (.chain name a :: es) = onKey (.map s) es := onKey_ne (by simp [Edit.chain]) es

@[simp] theorem onKey_chain_set (s name : String) (a : SetAction) (es : List Edit) :
    onKey (.chain s) (.set name a :: es) = onKey (.chain s) es := onKey_ne (by simp [Edit.set]) es

@[simp] theorem onKey_chain_map (s name : String) (a : MapAction) (es : List Edit) :
    onKey (.chain s) (.map name a :: es) = onKey (.chain s) es := onKey_ne (by simp [Edit.map]) es

theorem onKey_flatMap {ι : Type} (k : Key) (l : List ι) (f : ι → List Edit) :
    onKey k (l.flatMap f) = l.flatMap fun i => onKey k (f i) := by
  induction l with
  | nil => rfl
  | cons i l ih => rw [List.flatMap_cons, List.flatMap_cons, onKey_append, ih]

/-- Of blocks that each name their own object, one at most acts on a given object. -/
theorem onKey_flatMap_single {ι κ : Type} {k : Key} {l : List ι} {f : ι → List Edit} (g : ι → κ)
    (hn : (l.map g).Nodup) {i : ι} (hi : i ∈ l)
    (h : ∀ j ∈ l, g j ≠ g i → onKey k (f j) = []) :
    onKey k (l.flatMap f) = onKey k (f i) := by
  rw [onKey_flatMap]
  obtain ⟨as, bs, rfl⟩ := List.append_of_mem hi
  rw [List.map_append, List.map_cons, List.nodup_middle, List.nodup_cons] at hn
  have hne : ∀ j ∈ as ++ bs, onKey k (f j) = [] := by
    intro j hj
    refine h j (by grind) fun he => hn.1 ?_
    rw [← he, ← List.map_append]
    exact List.mem_map_of_mem hj
  rw [List.flatMap_append, List.flatMap_cons,
    List.flatMap_eq_nil_iff.mpr fun j hj => hne j (List.mem_append_left _ hj),
    List.flatMap_eq_nil_iff.mpr fun j hj => hne j (List.mem_append_right _ hj),
    List.nil_append, List.append_nil]

theorem onKey_eq_nil {k : Key} {es : List Edit} (h : ∀ e ∈ es, e.key ≠ k) : onKey k es = [] := by
  induction es with
  | nil => rfl
  | cons e es ih =>
    rw [onKey_ne (h e List.mem_cons_self), ih fun e he => h e (List.mem_cons_of_mem _ he)]

/-- **A script of edits acts on every object separately.** -/
theorem runEdits_iff {t t' : Table} {es : List Edit} :
    runEdits t es = some t' ↔ ∀ k, runObject k (t k) (onKey k es) = some (t' k) := by
  induction es generalizing t with
  | nil =>
    simp only [runEdits, Option.some.injEq, onKey_nil, runObject]
    exact ⟨fun h k => h ▸ rfl, fun h => funext fun k => h k⟩
  | cons e es ih =>
    simp only [runEdits, Edit.exec]
    have hne : ∀ k, k ≠ e.key → onKey k (e :: es) = onKey k es := fun k hk => onKey_ne hk.symm es
    cases he : e.key.exec e.action (t e.key) with
    | none =>
      simp only [Option.map_none, Option.bind_none, reduceCtorEq, false_iff, not_forall]
      refine ⟨e.key, ?_⟩
      rw [onKey_self, runObject, he]
      simp
    | some o =>
      simp only [Option.map_some, Option.bind_some]
      rw [ih]
      refine forall_congr' fun k => ?_
      by_cases hk : k = e.key
      · subst hk
        rw [Function.update_self, onKey_self, runObject, he, Option.bind_some]
      · rw [Function.update_of_ne hk, hne k hk]

theorem runEdits_key {t t' : Table} {es : List Edit} (h : runEdits t es = some t') (k : Key) :
    runObject k (t k) (onKey k es) = some (t' k) := runEdits_iff.mp h k

theorem runEdits_isSome {t : Table} {es : List Edit}
    (h : ∀ k, (runObject k (t k) (onKey k es)).isSome = true) : ∃ t', runEdits t es = some t' :=
  ⟨fun k => (runObject k (t k) (onKey k es)).get (h k),
    runEdits_iff.mpr fun k => (Option.some_get (h k)).symm⟩

/-! ## Sets, maps and chains -/

theorem mem_deleteElems {s s' : Finset Elem} {es : List Elem} (h : deleteElems s es = some s')
    (e : Elem) : e ∈ s' ↔ e ∈ s ∧ e ∉ es := by
  induction es generalizing s with
  | nil => cases h; simp
  | cons d es ih =>
    rw [deleteElems] at h
    split_ifs at h
    rw [ih h, Finset.mem_erase, List.mem_cons, not_or]
    tauto

theorem deleteElems_isSome {s : Finset Elem} {es : List Elem} (hn : es.Nodup)
    (h : ∀ e ∈ es, e ∈ s) : ∃ s', deleteElems s es = some s' := by
  induction es generalizing s with
  | nil => exact ⟨s, rfl⟩
  | cons d es ih =>
    obtain ⟨hd, hn⟩ := List.nodup_cons.mp hn
    rw [deleteElems, if_pos (h d List.mem_cons_self)]
    refine ih hn fun e he => Finset.mem_erase.mpr ⟨?_, h e (List.mem_cons_of_mem _ he)⟩
    rintro rfl
    exact hd he

theorem insertPairs_apply {m : AddrMap} {ps : List (Addr × Addr)} (hn : (ps.map Prod.fst).Nodup)
    (hm : ∀ q ∈ ps, m q.1 = none) :
    insertPairs m ps = some fun a => (ps.lookup a).or (m a) := by
  induction ps generalizing m with
  | nil => simp [insertPairs]
  | cons q ps ih =>
    obtain ⟨a, b⟩ := q
    obtain ⟨ha, hn⟩ := List.nodup_cons.mp hn
    rw [insertPairs, hm (a, b) List.mem_cons_self]
    have hne : ∀ q ∈ ps, q.1 ≠ a := fun q hq h => ha (List.mem_map.mpr ⟨q, hq, h⟩)
    simp only
    rw [ih hn fun q hq => by
      rw [Function.update_of_ne (hne q hq), hm q (List.mem_cons_of_mem _ hq)]]
    congr 1
    funext x
    by_cases hx : x = a
    · subst hx
      have hl : ps.lookup x = none := by
        rw [List.lookup_eq_none_iff]
        intro q hq
        simpa using (hne q hq).symm
      simp [hl]
    · rw [List.lookup_cons, Function.update_of_ne hx, beq_false_of_ne hx]

theorem deleteKeys_apply {m : AddrMap} {ks : List Addr} (hn : ks.Nodup)
    (hm : ∀ a ∈ ks, m a ≠ none) :
    deleteKeys m ks = some fun a => if a ∈ ks then none else m a := by
  induction ks generalizing m with
  | nil => simp [deleteKeys]
  | cons a ks ih =>
    obtain ⟨ha, hn⟩ := List.nodup_cons.mp hn
    obtain ⟨b, hb⟩ := Option.ne_none_iff_exists'.mp (hm a List.mem_cons_self)
    rw [deleteKeys, hb]
    have hne : ∀ x ∈ ks, x ≠ a := fun x hx h => ha (h ▸ hx)
    simp only
    rw [ih hn fun x hx => by
      rw [Function.update_of_ne (hne x hx)]; exact hm x (List.mem_cons_of_mem _ hx)]
    congr 1
    funext x
    by_cases hx : x = a
    · subst hx; simp
    · simp [hx]

theorem runObject_add_elements {ι : Type} (name : String) {s : NSet} {l : List ι} {f : ι → Elem}
    (h : ∀ i, s.type.admits (f i) = true) :
    runObject (.set name) (some s) (if l.isEmpty then [] else [.add_elements (l.map f)]) =
      some (some { s with elems := s.elems ∪ (l.map f).toFinset }) := by
  cases l with
  | nil => simp [runObject]
  | cons i l =>
    have hall : ((i :: l).map f).all s.type.admits = true := by simpa using ⟨h i, fun j _ => h j⟩
    simp only [List.isEmpty_cons, Bool.false_eq_true, if_false, runObject, Key.exec,
      SetAction.exec, hall, if_true, Option.bind_some]

theorem runObject_delete_elements {ι : Type} (name : String) {s : NSet} {l : List ι} {f : ι → Elem}
    (hn : (l.map f).Nodup) (h : ∀ i ∈ l, f i ∈ s.elems) :
    runObject (.set name) (some s) (if l.isEmpty then [] else [.delete_elements (l.map f)]) =
      some (some { s with elems := s.elems \ (l.map f).toFinset }) := by
  obtain ⟨es, hes⟩ := deleteElems_isSome hn (List.forall_mem_map.mpr h)
  have hsdiff : es = s.elems \ (l.map f).toFinset := by
    ext e
    rw [mem_deleteElems hes, Finset.mem_sdiff, List.mem_toFinset]
  cases l with
  | nil => simp [runObject]
  | cons i l =>
    simp only [List.isEmpty_cons, Bool.false_eq_true, if_false, runObject, Key.exec,
      SetAction.exec, hes, Option.map_some, Option.bind_some, hsdiff]

theorem runObject_chain (name : String) (hook : Hook) (rs : List Rule) :
    runObject (.chain name) none (.add hook :: rs.map .add_rule) = some (some ⟨hook, rs⟩) := by
  have h : ∀ (c : Chain) (rs : List Rule),
      runObject (.chain name) (some c) (rs.map ChainAction.add_rule) =
        some (some { c with rules := c.rules ++ rs }) := by
    intro c rs
    induction rs generalizing c with
    | nil => simp [runObject]
    | cons r rs ih =>
      rw [List.map_cons, runObject]
      show (some { c with rules := c.rules ++ [r] }).bind _ = _
      rw [Option.bind_some, ih]
      simp
  show (some (⟨hook, []⟩ : Chain)).bind _ = _
  rw [Option.bind_some, h]
  simp

/-! ## Rule blocks -/

theorem runRules_append (t : Table) (p : Packet) (as bs : List Rule) :
    runRules t p (as ++ bs) = match runRules t p as with
      | (p, some v) => (p, some v)
      | (p, none) => runRules t p bs := by
  induction as generalizing p with
  | nil => rfl
  | cons a as ih =>
    simp only [List.cons_append, runRules]
    rcases runRule t p a with ⟨p, _ | v⟩
    · exact ih p
    · rfl

theorem runRules_skip {t : Table} {p : Packet} {rs : List Rule}
    (h : ∀ r ∈ rs, runRule t p r = (p, none)) : runRules t p rs = (p, none) := by
  induction rs with
  | nil => rfl
  | cons r rs ih =>
    rw [runRules, h r List.mem_cons_self]
    exact ih fun r hr => h r (List.mem_cons_of_mem _ hr)

theorem runRule_guard_false {t : Table} {p : Packet} {m : Match} (h : m.holds t p = false)
    (r : Rule) : runRule t p (.guard m :: r) = (p, none) := by
  rw [runRule, if_neg (by simp [h])]

theorem runRule_guard_true {t : Table} {p : Packet} {m : Match} (h : m.holds t p = true)
    (r : Rule) : runRule t p (.guard m :: r) = runRule t p r := by
  rw [runRule, if_pos h]

/-- Mark a packet to `e` that no rule has marked yet. -/
def classify (device : String) (mask keep : Mark) (m : Match) (bits : Mark) : Rule :=
  [.guard (.iifname .eq device), .guard (.meta_mark mask .eq 0), .guard m,
    .meta_mark_set keep bits]

/-- **A block of marking rules**: the first rule that matches decides, and marks the packet once. -/
theorem runRules_classify {t : Table} {p : Packet} {device : String} {mask keep : Mark}
    (hd : p.iifname = device) (hp : p.mark &&& mask = 0) (rs : List (Match × Mark))
    (hb : ∀ r ∈ rs, ((p.mark &&& keep) ||| r.2) &&& mask ≠ 0) :
    runRules t p (rs.map fun r => classify device mask keep r.1 r.2) =
      (match rs.find? fun r => r.1.holds t p with
        | none => p
        | some r => { p with mark := (p.mark &&& keep) ||| r.2 }, none) := by
  have hdev : Match.holds t p (.iifname .eq device) = true := by simp [Match.holds, Op.test, hd]
  have hmark : Match.holds t p (.meta_mark mask .eq 0) = true := by
    simp [Match.holds, Op.test, hp]
  induction rs with
  | nil => rfl
  | cons r rs ih =>
    rw [List.map_cons, runRules, classify, runRule_guard_true hdev, runRule_guard_true hmark]
    cases hr : r.1.holds t p with
    | false =>
      rw [runRule_guard_false hr, List.find?_cons_of_neg (by simp [hr])]
      exact ih fun r hr => hb r (List.mem_cons_of_mem _ hr)
    | true =>
      rw [runRule_guard_true hr, List.find?_cons, hr]
      -- the packet is marked now, so every later rule of the block skips it
      refine runRules_skip fun s hs => ?_
      obtain ⟨q, -, rfl⟩ := List.mem_map.mp hs
      rw [classify, runRule_guard_true (by simp [Match.holds, Op.test, hd]), runRule_guard_false]
      simpa [Match.holds, Op.test] using hb r List.mem_cons_self

end Nft

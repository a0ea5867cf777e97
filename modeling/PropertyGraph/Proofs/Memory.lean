import Mathlib.Data.List.Count
import Mathlib.Data.List.Perm.Basic
import PropertyGraph.Proofs.Fields
import PropertyGraph.Step.Sequence

/-!
# Nodes in memory

Sequences share their nodes in memory. Each node counts those that hold it: cursors from outside and nodes
after it. A cursor that lets go of a node that nothing else holds frees it and goes on to the node before it,
until it meets one that is still held. As long as all counts are right, nothing that can be reached from
another cursor is freed or changed.
-/

namespace PropertyGraph

/-- A node at an address, with the address of the node before it and the number of its holders. -/
structure StoredNode where
  step : Step
  previous : Option Nat
  holders : Nat

/-- Nodes by address. -/
abbrev Memory := List (Nat × StoredNode)

namespace Memory

def addresses (m : Memory) : List Nat := m.map Prod.fst

/-- What the nodes themselves hold. -/
def pointers (m : Memory) : List (Option Nat) := m.map (·.2.previous)

/-- The step of a node and where the node before it is. -/
def link (m : Memory) (address : Nat) : Option (Step × Option Nat) :=
  (m.lookup address).map fun node => (node.step, node.previous)

def holders (m : Memory) (address : Nat) : Nat := ((m.lookup address).map (·.holders)).getD 0

/-- Memory without the node at an address. -/
def free (m : Memory) (address : Nat) : Memory := m.filter (·.1 != address)

/-- Counts the holders of a node anew. -/
def recount (address : Nat) (count : Nat → Nat) (m : Memory) : Memory :=
  m.map fun p => (p.1, if p.1 = address then { p.2 with holders := count p.2.holders } else p.2)

/-- One holder more for what a cursor points to. -/
def hold (m : Memory) : Option Nat → Memory
  | none => m
  | some address => m.recount address (· + 1)

variable {m m' : Memory} {address a : Nat} {cursor : Option Nat} {node : StoredNode}

theorem length_free_lt (h : m.lookup address = some node) : (m.free address).length < m.length := by
  exact List.length_filter_lt_length_iff_exists.mpr ⟨(address, node), mem_of_lookup h, by simp⟩

/-- One holder less for what a cursor points to. A node without other holders is freed, and the cursor goes on
to the node before it. -/
def unlink (m : Memory) : Option Nat → Memory
  | none => m
  | some address =>
    match h : m.lookup address with
    | none => m
    | some node =>
      have : (m.free address).length < m.length := length_free_lt h
      if node.holders = 1 then unlink (m.free address) node.previous else m.recount address (· - 1)
termination_by m.length

/-- The addresses and steps of the nodes from a cursor back to the first one. No node is met twice. -/
def walk (m : Memory) : Option Nat → List (Nat × Step)
  | none => []
  | some address =>
    match h : m.lookup address with
    | none => []
    | some node =>
      have : (m.free address).length < m.length := length_free_lt h
      (address, node.step) :: walk (m.free address) node.previous
termination_by m.length

theorem walk_none (m : Memory) : m.walk none = [] := by rw [walk]

theorem walk_some (h : m.lookup address = some node) :
    m.walk (some address) = (address, node.step) :: (m.free address).walk node.previous := by
  rw [walk]
  split
  · next hnone => cases hnone.symm.trans h
  · next node' hnode => cases hnode.symm.trans h; rfl

theorem lookup_free (m : Memory) (address a : Nat) :
    (m.free address).lookup a = if a = address then none else m.lookup a :=
  lookup_filter_ne m address a

theorem lookup_recount (address : Nat) (count : Nat → Nat) (m : Memory) (a : Nat) :
    (recount address count m).lookup a = (m.lookup a).map fun node =>
      if a = address then { node with holders := count node.holders } else node := by
  induction m with
  | nil => rfl
  | cons p m ih =>
      have hcons : recount address count (p :: m)
          = (p.1, if p.1 = address then { p.2 with holders := count p.2.holders } else p.2)
            :: recount address count m := rfl
      rw [hcons, lookup_cons_eq, lookup_cons_eq]
      by_cases h : a = p.1
      · rw [if_pos h, if_pos h, h, Option.map_some]
      · rw [if_neg h, if_neg h, ih]

theorem addresses_recount (address : Nat) (count : Nat → Nat) (m : Memory) :
    (recount address count m).addresses = m.addresses := by
  simp [addresses, recount, Function.comp_def]

theorem pointers_recount (address : Nat) (count : Nat → Nat) (m : Memory) :
    (recount address count m).pointers = m.pointers := by
  simp only [pointers, recount, List.map_map]
  refine List.map_congr_left fun p _ => ?_
  by_cases h : p.1 = address
  · simp [h]
  · simp [h]

theorem link_recount (address : Nat) (count : Nat → Nat) (m : Memory) :
    (recount address count m).link = m.link := by
  funext a
  rw [link, link, lookup_recount, Option.map_map]
  congr 1
  funext node
  by_cases h : a = address
  · simp [h]
  · simp [h]

theorem link_free (m : Memory) (address a : Nat) :
    (m.free address).link a = if a = address then none else m.link a := by
  rw [link, lookup_free, apply_ite (Option.map _)]
  rfl

theorem link_cons (address : Nat) (node : StoredNode) (m : Memory) (a : Nat) :
    link ((address, node) :: m) a
      = if a = address then some (node.step, node.previous) else m.link a := by
  rw [link, lookup_cons_eq, apply_ite (Option.map _)]
  rfl

theorem holders_of_lookup (h : m.lookup address = some node) : m.holders address = node.holders := by
  rw [holders, h]
  rfl

theorem holders_free (m : Memory) (address a : Nat) :
    (m.free address).holders a = if a = address then 0 else m.holders a := by
  rw [holders, lookup_free, apply_ite (Option.map _), apply_ite (Option.getD · 0)]
  rfl

theorem holders_cons (address : Nat) (node : StoredNode) (m : Memory) (a : Nat) :
    holders ((address, node) :: m) a = if a = address then node.holders else m.holders a := by
  rw [holders, lookup_cons_eq, apply_ite (Option.map _), apply_ite (Option.getD · 0)]
  rfl

theorem holders_recount (count : Nat → Nat) (h : m.lookup address = some node) (a : Nat) :
    (recount address count m).holders a
      = if a = address then count node.holders else m.holders a := by
  rw [holders, lookup_recount]
  by_cases ha : a = address
  · rw [if_pos ha, ha, h]
    simp
  · simp [ha, holders]

theorem exists_of_link {x : Step × Option Nat} (h : m.link a = some x) :
    ∃ node, m.lookup a = some node ∧ node.step = x.1 ∧ node.previous = x.2 := by
  obtain ⟨node, hnode, rfl⟩ := Option.map_eq_some_iff.mp h
  exact ⟨node, hnode, rfl, rfl⟩

theorem mem_addresses_of_lookup (h : m.lookup a = some node) : a ∈ m.addresses :=
  List.mem_map.mpr ⟨(a, node), mem_of_lookup h, rfl⟩

theorem previous_mem_pointers (h : m.lookup a = some node) : node.previous ∈ m.pointers :=
  List.mem_map.mpr ⟨(a, node), mem_of_lookup h, rfl⟩

/-! ### Chains

Cursors are followed along links, and links are never changed while a node is in use. So counting, sharing and
freeing elsewhere leave a chain as it is. -/

/-- The nodes that are met from a cursor back to the first one. -/
inductive Chain (m : Memory) : Option Nat → List (Nat × Step) → Prop
  | nil : Chain m none []
  | cons {address : Nat} {step : Step} {previous : Option Nat} {nodes : List (Nat × Step)} :
      m.link address = some (step, previous) → Chain m previous nodes →
      Chain m (some address) ((address, step) :: nodes)

namespace Chain

variable {nodes nodes' : List (Nat × Step)}

theorem unique (h : Chain m cursor nodes) (h' : Chain m cursor nodes') : nodes = nodes' := by
  induction h generalizing nodes' with
  | nil =>
      cases h'
      rfl
  | cons hlink _ ih =>
      cases h' with
      | cons hlink' htail =>
          cases hlink.symm.trans hlink'
          rw [ih htail]

/-- A chain is a chain wherever its links are. -/
theorem mono (h : Chain m cursor nodes)
    (hle : ∀ a ∈ nodes.map Prod.fst, ∀ x, m.link a = some x → m'.link a = some x) :
    Chain m' cursor nodes := by
  induction h with
  | nil => exact .nil
  | cons hlink _ ih =>
      refine .cons (hle _ List.mem_cons_self _ hlink) (ih fun a ha => ?_)
      exact hle a (List.mem_cons_of_mem _ ha)

theorem of_append {later : List (Nat × Step)} {step : Step}
    (h : Chain m cursor (later ++ (a, step) :: nodes)) : Chain m (some a) ((a, step) :: nodes) := by
  induction later generalizing cursor with
  | nil =>
      cases h with
      | cons hlink htail => exact .cons hlink htail
  | cons first later ih =>
      cases h with
      | cons _ htail => exact ih htail

theorem mem_addresses (h : Chain m cursor nodes) : ∀ a ∈ nodes.map Prod.fst, a ∈ m.addresses := by
  induction h with
  | nil => exact fun _ => False.elim ∘ List.not_mem_nil
  | cons hlink _ ih =>
      obtain ⟨node, hnode, -⟩ := exists_of_link hlink
      exact List.forall_mem_cons.mpr ⟨mem_addresses_of_lookup hnode, ih⟩

/-- No node is before itself: its own chain would be longer than it is. -/
theorem not_mem {step : Step} (h : Chain m (some a) ((a, step) :: nodes)) :
    a ∉ nodes.map Prod.fst := by
  intro hmem
  obtain ⟨p, hp, rfl⟩ := List.mem_map.mp hmem
  obtain ⟨later, before, rfl⟩ := List.append_of_mem hp
  have hsplit : Chain m (some p.1) (((p.1, step) :: later) ++ (p.1, p.2) :: before) := h
  have hlength := congrArg List.length (h.unique hsplit.of_append)
  simp only [List.length_cons, List.length_append] at hlength
  omega

/-- Only a chain that starts at a node, or goes through one that holds it, meets it. -/
theorem avoids (h : Chain m cursor nodes) (hstart : cursor ≠ some a) (hheld : some a ∉ m.pointers) :
    a ∉ nodes.map Prod.fst := by
  induction h with
  | nil => exact List.not_mem_nil
  | cons hlink _ ih =>
      obtain ⟨node, hnode, -, hprevious⟩ := exists_of_link hlink
      have hpointer := previous_mem_pointers hnode
      rw [hprevious] at hpointer
      refine List.not_mem_cons_of_ne_of_not_mem (fun heq => hstart (congrArg some heq.symm)) ?_
      exact ih fun heq => hheld (heq ▸ hpointer)

theorem free (h : Chain m cursor nodes) (havoids : a ∉ nodes.map Prod.fst) :
    Chain (m.free a) cursor nodes := by
  refine h.mono fun b hb x hlink => ?_
  have hne : b ≠ a := fun heq => havoids (heq ▸ hb)
  rwa [link_free, if_neg hne]

theorem recount (h : Chain m cursor nodes) (address : Nat) (count : Nat → Nat) :
    Chain (Memory.recount address count m) cursor nodes :=
  h.mono fun a _ x hlink => by rwa [link_recount]

theorem walk_eq (h : Chain m cursor nodes) : m.walk cursor = nodes := by
  induction nodes generalizing m cursor with
  | nil =>
      cases h
      exact walk_none m
  | cons first nodes ih =>
      have hfirst := h
      cases h with
      | cons hlink htail =>
          obtain ⟨node, hnode, hstep, hprevious⟩ := exists_of_link hlink
          rw [walk_some hnode, hstep, hprevious, ih (htail.free hfirst.not_mem)]

end Chain

/-! ### Counts

The count of a node is the number of cursors at it, from outside and from other nodes. It follows that unlinking
frees exactly what nothing leads to any more, and that a chain is never broken. -/

/-- Every node counts those that hold it, and what cursors from outside hold are chains. -/
structure Counted (m : Memory) (held : List (Option Nat)) : Prop where
  nodup : m.addresses.Nodup
  holders : ∀ a, m.holders a = (held ++ m.pointers).count (some a)
  chains : ∀ cursor ∈ held, ∃ nodes, Chain m cursor nodes

theorem perm_pointers_free (hnodup : m.addresses.Nodup) (h : m.lookup address = some node) :
    m.pointers.Perm (node.previous :: (m.free address).pointers) :=
  (perm_cons_filter_ne hnodup h).map fun p : Nat × StoredNode => p.2.previous

namespace Counted

variable {held held' : List (Option Nat)} {nodes : List (Nat × Step)}

theorem perm (h : Counted m held) (hperm : held.Perm held') : Counted m held' where
  nodup := h.nodup
  holders a := (h.holders a).trans ((hperm.append_right _).count_eq _)
  chains cursor hcursor := h.chains cursor (hperm.mem_iff.mpr hcursor)

theorem none (h : Counted m held) : Counted m (Option.none :: held) where
  nodup := h.nodup
  holders a := by
    rw [h.holders, List.cons_append, List.count_cons_of_ne (by simp)]
  chains := List.forall_mem_cons.mpr ⟨⟨[], .nil⟩, h.chains⟩

theorem of_none (h : Counted m (Option.none :: held)) : Counted m held where
  nodup := h.nodup
  holders a := by
    rw [h.holders, List.cons_append, List.count_cons_of_ne (by simp)]
  chains := (List.forall_mem_cons.mp h.chains).2

theorem exists_of_held (h : Counted m held) (hheld : some a ∈ held) :
    ∃ node, m.lookup a = some node := by
  obtain ⟨nodes, hchain⟩ := h.chains _ hheld
  cases hchain with
  | cons hlink _ =>
      obtain ⟨node, hnode, -⟩ := exists_of_link hlink
      exact ⟨node, hnode⟩

/-- What is held nowhere has no node. -/
theorem not_held (h : Counted m held) (ha : a ∉ m.addresses) : some a ∉ held ++ m.pointers := by
  intro hmem
  have hlookup : m.lookup a = Option.none :=
    Option.eq_none_iff_forall_ne_some.mpr fun _ hnode => ha (mem_addresses_of_lookup hnode)
  have hzero := h.holders a
  rw [Memory.holders, hlookup] at hzero
  exact List.count_eq_zero.mp hzero.symm hmem

theorem hold (h : Counted m held) (hcursor : cursor ∈ held) :
    Counted (m.hold cursor) (cursor :: held) := by
  cases cursor with
  | none => exact h.none
  | some address =>
      obtain ⟨node, hnode⟩ := h.exists_of_held hcursor
      have hcount := h.holders address
      rw [holders_of_lookup hnode] at hcount
      have hchains : ∀ c ∈ held, ∃ nodes, Chain (recount address (· + 1) m) c nodes := by
        intro c hc
        obtain ⟨nodes, hchain⟩ := h.chains c hc
        exact ⟨nodes, hchain.recount _ _⟩
      refine ⟨?_, fun a => ?_, List.forall_mem_cons.mpr ⟨hchains _ hcursor, hchains⟩⟩
      · rw [Memory.hold, addresses_recount]
        exact h.nodup
      · rw [Memory.hold, holders_recount _ hnode, pointers_recount, List.cons_append]
        by_cases ha : a = address
        · rw [if_pos ha, hcount, ha, List.count_cons_self]
        · rw [if_neg ha, h.holders, List.count_cons_of_ne (by simpa using Ne.symm ha)]

/-- A new node takes a cursor over, and is itself held from outside. -/
theorem push (h : Counted m (cursor :: held)) (step : Step) (ha : a ∉ m.addresses) :
    Counted ((a, ⟨step, cursor, 1⟩) :: m) (some a :: held) := by
  have hchain : ∀ c ∈ cursor :: held, ∃ nodes, Chain ((a, ⟨step, cursor, 1⟩) :: m) c nodes := by
    intro c hc
    obtain ⟨nodes, hchain⟩ := h.chains c hc
    refine ⟨nodes, hchain.mono fun b hb x hlink => ?_⟩
    have hne : b ≠ a := fun heq => ha (heq ▸ hchain.mem_addresses b hb)
    rwa [link_cons, if_neg hne]
  obtain ⟨⟨before, hbefore⟩, hheld⟩ := List.forall_mem_cons.mp hchain
  have hpointers : pointers ((a, ⟨step, cursor, 1⟩) :: m) = cursor :: m.pointers := rfl
  have hmoved : (held ++ cursor :: m.pointers).Perm (cursor :: held ++ m.pointers) :=
    List.perm_middle
  refine ⟨List.nodup_cons.mpr ⟨ha, h.nodup⟩, fun b => ?_, ?_⟩
  · rw [holders_cons, hpointers, List.cons_append]
    by_cases hb : b = a
    · rw [if_pos hb, hb, List.count_cons_self, hmoved.count_eq,
        List.count_eq_zero.mpr (h.not_held ha)]
    · rw [if_neg hb, List.count_cons_of_ne (by simpa using Ne.symm hb), hmoved.count_eq, h.holders]
  · exact List.forall_mem_cons.mpr ⟨⟨_, .cons (by rw [link_cons, if_pos rfl]) hbefore⟩, hheld⟩

/-- A node that is held once, by a cursor from outside, may be freed. What it held is then held by the cursor. -/
theorem free (h : Counted m (some a :: held)) (hnode : m.lookup a = some node)
    (honce : node.holders = 1) : Counted (m.free a) (node.previous :: held) := by
  have hpointers := perm_pointers_free h.nodup hnode
  have hcount := h.holders a
  rw [holders_of_lookup hnode, honce, List.cons_append, List.count_cons_self] at hcount
  have hnowhere : some a ∉ held ++ m.pointers := List.count_eq_zero.mp (by omega)
  obtain ⟨hnotHeld, hnotPointed⟩ := not_or.mp (mt List.mem_append.mpr hnowhere)
  have hmoved : (node.previous :: held ++ (m.free a).pointers).Perm (held ++ m.pointers) :=
    List.perm_middle.symm.trans (hpointers.symm.append_left held)
  have hfree : ∀ c nodes, Chain m c nodes → c ≠ some a → Chain (m.free a) c nodes :=
    fun c nodes hchain hne => hchain.free (hchain.avoids hne hnotPointed)
  refine ⟨?_, fun b => ?_, List.forall_mem_cons.mpr ⟨?_, fun c hc => ?_⟩⟩
  · exact h.nodup.sublist (List.filter_sublist.map Prod.fst)
  · rw [holders_free, hmoved.count_eq]
    by_cases hb : b = a
    · rw [if_pos hb, hb, List.count_eq_zero.mpr hnowhere]
    · rw [if_neg hb, h.holders, List.cons_append, List.count_cons_of_ne (by simpa using Ne.symm hb)]
  · obtain ⟨nodes, hchain⟩ := h.chains _ List.mem_cons_self
    cases hchain with
    | cons hlink htail =>
        obtain ⟨node', hnode', -, rfl⟩ := exists_of_link hlink
        cases hnode.symm.trans hnode'
        exact ⟨_, hfree _ _ htail fun heq => hnotPointed (heq ▸ previous_mem_pointers hnode)⟩
  · obtain ⟨nodes, hchain⟩ := h.chains c (List.mem_cons_of_mem _ hc)
    exact ⟨nodes, hfree c nodes hchain fun heq => hnotHeld (heq ▸ hc)⟩

/-- A cursor lets go of a node that something else holds. -/
theorem letGo (h : Counted m (some a :: held)) (hnode : m.lookup a = some node) :
    Counted (recount a (· - 1) m) held := by
  have hcount := h.holders a
  rw [holders_of_lookup hnode, List.cons_append, List.count_cons_self] at hcount
  refine ⟨?_, fun b => ?_, fun c hc => ?_⟩
  · rw [addresses_recount]
    exact h.nodup
  · rw [holders_recount _ hnode, pointers_recount]
    by_cases hb : b = a
    · rw [if_pos hb, hcount, hb, Nat.add_sub_cancel]
    · rw [if_neg hb, h.holders, List.cons_append, List.count_cons_of_ne (by simpa using Ne.symm hb)]
  · obtain ⟨nodes, hchain⟩ := h.chains c (List.mem_cons_of_mem _ hc)
    exact ⟨nodes, hchain.recount _ _⟩

/-- Unlinking keeps all counts right. -/
theorem unlink (h : Counted m (cursor :: held)) : Counted (m.unlink cursor) held := by
  fun_induction Memory.unlink m cursor with
  | case1 m => exact h.of_none
  | case2 m a habsent =>
      obtain ⟨node, hnode⟩ := h.exists_of_held List.mem_cons_self
      cases habsent.symm.trans hnode
  | case3 m a node hnode _ honce ih => exact ih (h.free hnode honce)
  | case4 m a node hnode _ _ => exact h.letGo hnode

end Counted

/-- What is left after unlinking was there before. -/
theorem link_of_unlink {x : Step × Option Nat} (h : (m.unlink cursor).link a = some x) :
    m.link a = some x := by
  fun_induction Memory.unlink m cursor with
  | case1 m => exact h
  | case2 m b habsent => exact h
  | case3 m b node hnode _ honce ih =>
      have hfreed := ih h
      rw [link_free] at hfreed
      by_cases hb : a = b
      · rw [if_pos hb] at hfreed
        cases hfreed
      · rwa [if_neg hb] at hfreed
  | case4 m b node hnode _ _ => rwa [link_recount] at h

theorem addresses_unlink_subset (m : Memory) (cursor : Option Nat) :
    (m.unlink cursor).addresses ⊆ m.addresses := by
  fun_induction Memory.unlink m cursor with
  | case1 m => exact List.Subset.refl _
  | case2 m b habsent => exact List.Subset.refl _
  | case3 m b node hnode _ honce ih =>
      exact List.Subset.trans ih (List.map_subset Prod.fst (List.filter_subset_self m))
  | case4 m b node hnode _ _ =>
      rw [addresses_recount]
      exact List.Subset.refl _

/-- Unlinking one cursor leaves the chains of the others. -/
theorem Counted.chain_unlink {held : List (Option Nat)} {c : Option Nat} {nodes : List (Nat × Step)}
    (h : Counted m (cursor :: held)) (hc : c ∈ held) (hchain : Chain m c nodes) :
    Chain (m.unlink cursor) c nodes := by
  obtain ⟨left, hleft⟩ := h.unlink.chains c hc
  have hbefore : Chain m c left := hleft.mono fun a _ x => link_of_unlink
  rwa [hchain.unique hbefore]

theorem link_hold (m : Memory) (cursor : Option Nat) : (m.hold cursor).link = m.link := by
  cases cursor with
  | none => rfl
  | some address => exact link_recount ..

theorem addresses_hold (m : Memory) (cursor : Option Nat) :
    (m.hold cursor).addresses = m.addresses := by
  cases cursor with
  | none => rfl
  | some address => exact addresses_recount ..

end Memory

end PropertyGraph

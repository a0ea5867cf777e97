import PropertyGraph.Proofs.Memory
import PropertyGraph.Proofs.Sequences

/-!
# Sequences in memory

A sequence in memory is a cursor at its last node and a length. Nodes are shared, counted and freed, and the
addresses of freed nodes may be given again. What is seen of the sequences after any history is what is seen
of sequences that are never changed and whose nodes have numbers for good.
-/

namespace PropertyGraph

/-- A sequence by its last node, with its length beside it. -/
structure Handle where
  last : Option Nat
  length : Nat

/-- Gives an address that is not in use. -/
structure Allocator where
  address : List Nat → Nat
  unused : ∀ used, address used ∉ used

instance : Inhabited Allocator where
  default :=
    { address := fun used => used.max?.getD 0 + 1
      unused := fun _ hmem => Nat.not_succ_le_self _ (List.le_max?_getD_of_mem hmem) }

/-- What is seen of a sequence. -/
structure SequenceView where
  steps : List Step
  length : Nat
  last : Option Step

def StepSequence.view (s : StepSequence) : SequenceView := ⟨s.toList, s.length, s.last?⟩

namespace Handle

def empty : Handle := ⟨none, 0⟩

/-- A sequence with one more node, which holds the last node of the sequence before. -/
def append (allocator : Allocator) (step : Step) (h : Handle) (m : Memory) : Handle × Memory :=
  let address := allocator.address m.addresses
  (⟨some address, h.length + 1⟩, (address, ⟨step, h.last, 1⟩) :: m.hold h.last)

/-- Appends steps in turn and gives up each sequence but the last. -/
def extend (allocator : Allocator) : List Step → Handle → Memory → Handle × Memory
  | [], h, m => (h, m)
  | step :: rest, h, m =>
    let (next, m) := h.append allocator step m
    extend allocator rest next (m.unlink h.last)

def steps (h : Handle) (m : Memory) : List Step := ((m.walk h.last).map Prod.snd).reverse

def last? (h : Handle) (m : Memory) : Option Step :=
  h.last.bind fun address => (m.lookup address).map (·.step)

def view (h : Handle) (m : Memory) : SequenceView := ⟨h.steps m, h.length, h.last? m⟩

/-- Whether the last node of this sequence is a node of the other one. -/
def isPrefixOf (h other : Handle) (m : Memory) : Bool :=
  match h.last with
  | none => true
  | some address => (m.walk other.last).any (·.1 == address)

/-- Whether two sequences have the same steps. -/
def same (h other : Handle) (m : Memory) : Bool :=
  h.length == other.length && h.steps m == other.steps m

end Handle

/-- Sequences in memory under names. -/
structure SequenceStore where
  memory : Memory
  handles : List (String × Handle)

namespace SequenceStore

def empty : SequenceStore := ⟨[], []⟩

def get? (store : SequenceStore) (name : String) : Option Handle := store.handles.lookup name

def view? (store : SequenceStore) (name : String) : Option SequenceView :=
  (store.get? name).map (·.view store.memory)

def drop (store : SequenceStore) (name : String) : SequenceStore :=
  ⟨store.memory.unlink ((store.get? name).bind (·.last)), store.handles.filter (·.1 != name)⟩

/-- Keeps a sequence that has been made, then drops what the name stood for. -/
def set (name : String) (made : Handle × Memory) (store : SequenceStore) : SequenceStore :=
  let left := drop ⟨made.2, store.handles⟩ name
  ⟨left.memory, (name, made.1) :: left.handles⟩

def perform (allocator : Allocator) (store : SequenceStore) : SequenceCall → SequenceStore
  | .new name => store.set name (.empty, store.memory)
  | .append name source step =>
    match store.get? source with
    | some h => store.set name (h.append allocator step store.memory)
    | none => store
  | .collect name steps => store.set name (Handle.empty.extend allocator steps store.memory)
  | .share name source =>
    match store.get? source with
    | some h => store.set name (h, store.memory.hold h.last)
    | none => store
  | .copy name source =>
    match store.get? source with
    | some h =>
      store.set name (Handle.empty.extend allocator (h.steps store.memory) store.memory)
    | none => store
  | .drop name => store.drop name

def after (allocator : Allocator) (history : List SequenceCall) : SequenceStore :=
  history.foldl (perform allocator) empty

theorem after_concat (allocator : Allocator) (history : List SequenceCall) (call : SequenceCall) :
    after allocator (history ++ [call]) = (after allocator history).perform allocator call :=
  List.foldl_concat ..

end SequenceStore

/-- A handle stands for a sequence, whose nodes are numbered by their addresses. -/
structure Represents (m : Memory) (number : Nat → Nat) (h : Handle) (s : StepSequence) : Prop where
  length : h.length = s.length
  chain : ∃ nodes, m.Chain h.last nodes ∧ s.nodes = nodes.map fun p => ⟨number p.1, p.2⟩

namespace Represents

variable {m m' : Memory} {number number' : Nat → Nat} {h k : Handle} {s t : StepSequence}

theorem empty (m : Memory) (number : Nat → Nat) : Represents m number .empty .empty :=
  ⟨rfl, [], .nil, rfl⟩

theorem steps_eq (hs : Represents m number h s) : h.steps m = s.toList := by
  obtain ⟨nodes, hchain, hnodes⟩ := hs.chain
  rw [Handle.steps, hchain.walk_eq, StepSequence.toList, StepSequence.reversed, hnodes, List.map_map]
  rfl

theorem last?_eq (hs : Represents m number h s) : h.last? m = s.last? := by
  obtain ⟨nodes, hchain, hnodes⟩ := hs.chain
  rw [Handle.last?, StepSequence.last?, hnodes]
  generalize h.last = cursor at hchain
  cases hchain with
  | nil => rfl
  | cons hlink _ =>
      obtain ⟨node, hnode, rfl, -⟩ := Memory.exists_of_link hlink
      rw [Option.bind_some, hnode]
      rfl

theorem view_eq (hs : Represents m number h s) : h.view m = s.view := by
  rw [Handle.view, StepSequence.view, hs.steps_eq, hs.last?_eq, hs.length]

theorem same_eq (hs : Represents m number h s) (ht : Represents m number k t) :
    h.same k m = (s == t) := by
  rw [Handle.same, hs.steps_eq, ht.steps_eq, hs.length, ht.length]
  rfl

/-- The test by addresses is the test by numbers, where these tell addresses apart. -/
theorem isPrefixOf_eq (hs : Represents m number h s) (ht : Represents m number k t)
    (hinjective : ∀ a ∈ m.addresses, ∀ b ∈ m.addresses, number a = number b → a = b) :
    h.isPrefixOf k m = s.isSharedBy t := by
  obtain ⟨nodes, hchain, hnodes⟩ := hs.chain
  obtain ⟨others, hother, hothers⟩ := ht.chain
  rw [Handle.isPrefixOf, StepSequence.isSharedBy, hnodes, hothers, hother.walk_eq]
  generalize h.last = cursor at hchain
  cases hchain with
  | nil => rfl
  | @cons address step previous nodes hlink htail =>
      change (others.any fun p => p.1 == address)
        = (others.map fun p => SequenceNode.mk (number p.1) p.2).any (·.number == number address)
      rw [List.any_map]
      have haddress := (Memory.Chain.cons hlink htail).mem_addresses address List.mem_cons_self
      rw [Bool.eq_iff_iff, List.any_eq_true, List.any_eq_true]
      refine exists_congr fun p => and_congr_right fun hp => ?_
      have hmem := hother.mem_addresses p.1 (List.mem_map_of_mem hp)
      rw [Function.comp_apply, beq_iff_eq, beq_iff_eq]
      exact ⟨congrArg number, hinjective _ hmem _ haddress⟩

/-- A sequence stays as long as its links and their numbers do. -/
theorem keep (hs : Represents m number h s)
    (hchain : ∀ nodes, m.Chain h.last nodes → m'.Chain h.last nodes)
    (hnumber : ∀ a ∈ m.addresses, number' a = number a) : Represents m' number' h s := by
  obtain ⟨nodes, hnodes, hs'⟩ := hs.chain
  refine ⟨hs.length, nodes, hchain nodes hnodes, hs'.trans (List.map_congr_left fun p hp => ?_)⟩
  rw [hnumber p.1 (hnodes.mem_addresses p.1 (List.mem_map_of_mem hp))]

end Represents

/-! ### Sequences in hand -/

/-- Memory holds sequences by handles. Numbers tell the addresses in use apart, and the next number is free. -/
structure Holds (m : Memory) (number : Nat → Nat) (next : Nat)
    (held : List (Handle × StepSequence)) : Prop where
  counted : m.Counted (held.map fun p => p.1.last)
  lt : ∀ a ∈ m.addresses, number a < next
  injective : ∀ a ∈ m.addresses, ∀ b ∈ m.addresses, number a = number b → a = b
  represents : ∀ p ∈ held, Represents m number p.1 p.2

namespace Holds

variable {m m' : Memory} {number number' : Nat → Nat} {next : Nat} {h : Handle} {s : StepSequence}
  {held held' : List (Handle × StepSequence)} {p : Handle × StepSequence}

theorem perm (hm : Holds m number next held) (hperm : held.Perm held') :
    Holds m number next held' where
  counted := hm.counted.perm (hperm.map _)
  lt := hm.lt
  injective := hm.injective
  represents p hp := hm.represents p (hperm.mem_iff.mpr hp)

theorem empty (hm : Holds m number next held) : Holds m number next ((.empty, .empty) :: held) where
  counted := hm.counted.none
  lt := hm.lt
  injective := hm.injective
  represents := List.forall_mem_cons.mpr ⟨.empty m number, hm.represents⟩

theorem hold (hm : Holds m number next held) (hp : p ∈ held) :
    Holds (m.hold p.1.last) number next (p :: held) := by
  have hkept : ∀ q ∈ held, Represents (m.hold p.1.last) number q.1 q.2 := fun q hq =>
    (hm.represents q hq).keep
      (fun nodes hchain => hchain.mono fun a _ x hlink => by rwa [Memory.link_hold])
      fun a _ => rfl
  refine ⟨hm.counted.hold (List.mem_map_of_mem hp), ?_, ?_,
    List.forall_mem_cons.mpr ⟨hkept p hp, hkept⟩⟩
  · rw [Memory.addresses_hold]
    exact hm.lt
  · rw [Memory.addresses_hold]
    exact hm.injective

theorem unlink (hm : Holds m number next (p :: held)) :
    Holds (m.unlink p.1.last) number next held where
  counted := hm.counted.unlink
  lt a ha := hm.lt a (Memory.addresses_unlink_subset m _ ha)
  injective a ha b hb := hm.injective a (Memory.addresses_unlink_subset m _ ha) b
    (Memory.addresses_unlink_subset m _ hb)
  represents q hq := (hm.represents q (List.mem_cons_of_mem _ hq)).keep
    (fun _ => hm.counted.chain_unlink (List.mem_map_of_mem hq)) fun _ _ => rfl

/-- A node at a new address gets the next number. -/
theorem push (hm : Holds m number next ((h, s) :: held)) (step : Step) {address : Nat}
    (haddress : address ∉ m.addresses) :
    Holds ((address, ⟨step, h.last, 1⟩) :: m) (Function.update number address next) (next + 1)
      ((⟨some address, h.length + 1⟩, s.append next step) :: held) := by
  have hne : ∀ a ∈ m.addresses, a ≠ address := fun a ha heq => haddress (heq ▸ ha)
  have hnumber : ∀ a ∈ m.addresses, Function.update number address next a = number a :=
    fun a ha => Function.update_of_ne (hne a ha) ..
  have hnew : Function.update number address next address = next := Function.update_self ..
  have hkept : ∀ q ∈ (h, s) :: held, Represents ((address, ⟨step, h.last, 1⟩) :: m)
      (Function.update number address next) q.1 q.2 := fun q hq =>
    (hm.represents q hq).keep
      (fun nodes hchain => hchain.mono fun a ha x hlink => by
        rwa [Memory.link_cons, if_neg (hne a (hchain.mem_addresses a ha))])
      hnumber
  obtain ⟨⟨hlength, nodes, hchain, hnodes⟩, hheld⟩ := List.forall_mem_cons.mp hkept
  refine ⟨hm.counted.push step haddress, ?_, ?_, List.forall_mem_cons.mpr ⟨⟨?_, ?_⟩, hheld⟩⟩
  · refine List.forall_mem_cons.mpr ⟨?_, fun a ha => ?_⟩
    · exact hnew.trans_lt (Nat.lt_succ_self next)
    · exact (hnumber a ha).trans_lt (Nat.lt_succ_of_lt (hm.lt a ha))
  · have hfresh : ∀ a ∈ m.addresses, Function.update number address next a ≠ next :=
      fun a ha => ((hnumber a ha).trans_lt (hm.lt a ha)).ne
    refine List.forall_mem_cons.mpr ⟨List.forall_mem_cons.mpr ⟨fun _ => rfl, ?_⟩, fun a ha =>
      List.forall_mem_cons.mpr ⟨?_, fun b hb heq => ?_⟩⟩
    · exact fun b hb heq => absurd (heq.symm.trans hnew) (hfresh b hb)
    · exact fun heq => absurd (heq.trans hnew) (hfresh a ha)
    · rw [hnumber a ha, hnumber b hb] at heq
      exact hm.injective a ha b hb heq
  · exact congrArg (· + 1) hlength
  · refine ⟨(address, step) :: nodes, .cons (by rw [Memory.link_cons, if_pos rfl]) hchain, ?_⟩
    rw [List.map_cons, hnew, ← hnodes]
    rfl

variable (allocator : Allocator)

theorem append (hm : Holds m number next held) (hp : (h, s) ∈ held) (step : Step) :
    ∃ number', Holds (h.append allocator step m).2 number' (next + 1)
      (((h.append allocator step m).1, s.append next step) :: held) := by
  have hunused : allocator.address m.addresses ∉ (m.hold h.last).addresses := by
    rw [Memory.addresses_hold]
    exact allocator.unused m.addresses
  exact ⟨_, (hm.hold hp).push step hunused⟩

theorem extend (hm : Holds m number next ((h, s) :: held)) (steps : List Step) :
    ∃ number', Holds (h.extend allocator steps m).2 number' (next + steps.length)
      (((h.extend allocator steps m).1, s.extended next steps) :: held) := by
  induction steps generalizing m number next h s with
  | nil => exact ⟨number, hm⟩
  | cons step rest ih =>
      obtain ⟨appended, happended⟩ := hm.append allocator List.mem_cons_self step
      obtain ⟨number', hrest⟩ := ih (happended.perm (List.Perm.swap ..)).unlink
      rw [Nat.add_assoc, Nat.add_comm 1] at hrest
      exact ⟨number', hrest⟩

end Holds

/-- A store in memory keeps the sequences of a workspace, name by name. -/
structure Mirrors (store : SequenceStore) (w : Workspace) (number : Nat → Nat)
    (table : List (String × Handle × StepSequence)) : Prop where
  handles : store.handles = table.map fun e => (e.1, e.2.1)
  sequences : w.sequences = table.map fun e => (e.1, e.2.2)
  nodup : (table.map Prod.fst).Nodup
  holds : Holds store.memory number w.nextNumber (table.map Prod.snd)

namespace Mirrors

variable {store : SequenceStore} {w : Workspace} {number number' : Nat → Nat} {next : Nat}
  {table : List (String × Handle × StepSequence)} {name : String} {p : Handle × StepSequence}

theorem get?_handles (hm : Mirrors store w number table) (name : String) :
    store.get? name = (table.lookup name).map Prod.fst := by
  rw [SequenceStore.get?, hm.handles]
  exact lookup_map_values (fun _ p => p.1) table name

theorem get?_sequences (hm : Mirrors store w number table) (name : String) :
    w.get? name = (table.lookup name).map Prod.snd := by
  rw [Workspace.get?, hm.sequences]
  exact lookup_map_values (fun _ p => p.2) table name

theorem mem_held (h : table.lookup name = some p) : p ∈ table.map Prod.snd :=
  List.mem_map.mpr ⟨(name, p), mem_of_lookup h, rfl⟩

/-- What a name stands for is unlinked, beside whatever else is in hand. -/
theorem holds_drop {m : Memory} (extra : List (Handle × StepSequence))
    (hnodup : (table.map Prod.fst).Nodup)
    (hm : Holds m number next (extra ++ table.map Prod.snd)) (name : String) :
    Holds (m.unlink ((table.lookup name).bind (·.1.last))) number next
      (extra ++ (table.filter (·.1 != name)).map Prod.snd) := by
  cases hlookup : table.lookup name with
  | none =>
      have hkept : ∀ e ∈ table, (e.1 != name) = true := by
        rintro ⟨key, q⟩ he
        refine bne_iff_ne.mpr ?_
        rintro rfl
        cases hlookup.symm.trans (lookup_of_mem hnodup he)
      rw [List.filter_eq_self.mpr hkept, Option.bind_none, Memory.unlink]
      exact hm
  | some p =>
      have htable := (perm_cons_filter_ne hnodup hlookup).map Prod.snd
      exact (hm.perm ((htable.append_left extra).trans List.perm_middle)).unlink

theorem filter_map_snd {α β : Type} (f : α → β) (table : List (String × α)) (name : String) :
    (table.map fun e => (e.1, f e.2)).filter (·.1 != name)
      = (table.filter (·.1 != name)).map fun e => (e.1, f e.2) := by
  rw [List.filter_map]
  rfl

theorem nodup_filter (hnodup : (table.map Prod.fst).Nodup) (name : String) :
    ((table.filter (·.1 != name)).map Prod.fst).Nodup :=
  hnodup.sublist (List.filter_sublist.map Prod.fst)

theorem bind_last (hm : Mirrors store w number table) (name : String) :
    (store.get? name).bind (·.last) = (table.lookup name).bind (·.1.last) := by
  rw [hm.get?_handles, Option.bind_map]
  rfl

theorem drop (hm : Mirrors store w number table) (name : String) :
    Mirrors (store.drop name) (w.remove name) number (table.filter (·.1 != name)) where
  handles := by rw [SequenceStore.drop, hm.handles, filter_map_snd]
  sequences := by rw [Workspace.remove, hm.sequences, filter_map_snd]
  nodup := nodup_filter hm.nodup name
  holds := by
    rw [SequenceStore.drop, hm.bind_last]
    exact holds_drop [] hm.nodup hm.holds name

/-- A sequence that has been made is kept under a name in place of what the name stood for. -/
theorem set {made : Handle × Memory} {s : StepSequence} (hm : Mirrors store w number table)
    (hmade : Holds made.2 number' next ((made.1, s) :: table.map Prod.snd)) (name : String) :
    Mirrors (store.set name made) (Workspace.set name s ⟨w.sequences, next⟩) number'
      ((name, made.1, s) :: table.filter (·.1 != name)) where
  handles := by
    rw [SequenceStore.set, SequenceStore.drop, hm.handles, filter_map_snd]
    rfl
  sequences := by
    rw [Workspace.set, Workspace.remove, hm.sequences, filter_map_snd]
    rfl
  nodup := by
    refine List.nodup_cons.mpr ⟨fun hmem => ?_, nodup_filter hm.nodup name⟩
    obtain ⟨e, he, heq⟩ := List.mem_map.mp hmem
    exact bne_iff_ne.mp (List.mem_filter.mp he).2 heq
  holds := by
    have hcursor := hm.bind_last name
    rw [SequenceStore.set, SequenceStore.drop]
    dsimp only
    have hleft := holds_drop [(made.1, s)] hm.nodup hmade name
    rw [← hcursor] at hleft
    exact hleft

variable (allocator : Allocator)

theorem perform (hm : Mirrors store w number table) (call : SequenceCall) :
    ∃ number' table', Mirrors (store.perform allocator call) (w.perform call) number' table' := by
  cases call with
  | new name => exact ⟨_, _, hm.set hm.holds.empty name⟩
  | drop name => exact ⟨_, _, hm.drop name⟩
  | collect name steps =>
      obtain ⟨number', hmade⟩ := hm.holds.empty.extend allocator steps
      rw [Workspace.perform, Workspace.collect, Workspace.extend_eq]
      exact ⟨_, _, hm.set hmade name⟩
  | append name source step =>
      rw [SequenceStore.perform, Workspace.perform, Workspace.append, hm.get?_handles,
        hm.get?_sequences]
      cases hsource : table.lookup source with
      | none => exact ⟨_, _, hm⟩
      | some p =>
          obtain ⟨number', hmade⟩ := hm.holds.append allocator (mem_held hsource) step
          exact ⟨_, _, hm.set hmade name⟩
  | share name source =>
      rw [SequenceStore.perform, Workspace.perform, Workspace.share, hm.get?_handles,
        hm.get?_sequences]
      cases hsource : table.lookup source with
      | none => exact ⟨_, _, hm⟩
      | some p => exact ⟨_, _, hm.set (hm.holds.hold (mem_held hsource)) name⟩
  | copy name source =>
      rw [SequenceStore.perform, Workspace.perform, Workspace.copy, hm.get?_handles,
        hm.get?_sequences]
      cases hsource : table.lookup source with
      | none => exact ⟨_, _, hm⟩
      | some p =>
          have hsteps := (hm.holds.represents p (mem_held hsource)).steps_eq
          obtain ⟨number', hmade⟩ := hm.holds.empty.extend allocator p.2.toList
          dsimp only [Option.map_some]
          rw [hsteps, Workspace.collect, Workspace.extend_eq]
          exact ⟨_, _, hm.set hmade name⟩

theorem after (history : List SequenceCall) : ∃ number table,
    Mirrors (SequenceStore.after allocator history) (Workspace.after history) number table := by
  induction history using List.reverseRecOn with
  | nil =>
      refine ⟨id, [], rfl, rfl, List.nodup_nil, ⟨List.nodup_nil, fun _ => rfl, nofun⟩, ?_, ?_, ?_⟩
      all_goals nofun
  | append_singleton history call ih =>
      obtain ⟨number, table, hm⟩ := ih
      rw [SequenceStore.after_concat, Workspace.after_concat]
      exact hm.perform allocator call

theorem view?_eq (hm : Mirrors store w number table) (name : String) :
    store.view? name = (w.get? name).map StepSequence.view := by
  rw [SequenceStore.view?, hm.get?_handles, hm.get?_sequences]
  cases hname : table.lookup name with
  | none => rfl
  | some p => exact congrArg some (hm.holds.represents p (mem_held hname)).view_eq

theorem tests_eq {h k : Handle} {other : String} (hm : Mirrors store w number table)
    (hname : store.get? name = some h) (hother : store.get? other = some k) :
    ∃ s t, w.get? name = some s ∧ w.get? other = some t ∧
      h.same k store.memory = (s == t) ∧ h.isPrefixOf k store.memory = s.isSharedBy t := by
  rw [hm.get?_handles] at hname hother
  obtain ⟨p, hp, rfl⟩ := Option.map_eq_some_iff.mp hname
  obtain ⟨q, hq, rfl⟩ := Option.map_eq_some_iff.mp hother
  have hs := hm.holds.represents p (mem_held hp)
  have ht := hm.holds.represents q (mem_held hq)
  refine ⟨p.2, q.2, ?_, ?_, hs.same_eq ht, hs.isPrefixOf_eq ht hm.holds.injective⟩
  · rw [hm.get?_sequences, hp]
    rfl
  · rw [hm.get?_sequences, hq]
    rfl

end Mirrors

/-- What holds of the sequences after any history, and of what is seen of them in memory. -/
structure Persistent (allocator : Allocator) (history : List SequenceCall) : Prop where
  others : ∀ call name, name ≠ call.target →
    ((Workspace.after history).perform call).get? name = (Workspace.after history).get? name ∧
      ((SequenceStore.after allocator history).perform allocator call).view? name
        = (SequenceStore.after allocator history).view? name
  measured : ∀ name s, (Workspace.after history).get? name = some s →
    s.length = s.toList.length ∧ s.last? = s.toList.getLast?
  appended : ∀ name source step s, (Workspace.after history).get? source = some s →
    ∃ t, ((Workspace.after history).perform (.append name source step)).get? name = some t ∧
      t.toList = s.toList ++ [step]
  collected : ∀ name steps, ∃ t,
    ((Workspace.after history).perform (.collect name steps)).get? name = some t ∧
      t.toList = steps
  copied : ∀ name source s, (Workspace.after history).get? source = some s →
    ∃ t, ((Workspace.after history).perform (.copy name source)).get? name = some t ∧
      t.toList = s.toList
  equal : ∀ s t : StepSequence, (s == t) = (s.toList == t.toList)
  /-- A sequence without steps is the beginning of every other one. -/
  shared : ∀ name other s t, (Workspace.after history).get? name = some s →
    (Workspace.after history).get? other = some t →
      (s.isSharedBy t = true ↔ s.isEmpty = true ∨ LeadsTo history name other) ∧
        (s.isSharedBy t = true → s.toList <+: t.toList)
  /-- A name shows in memory the steps, the length and the last step of its sequence. -/
  seen : ∀ name, (SequenceStore.after allocator history).view? name
    = ((Workspace.after history).get? name).map StepSequence.view
  tested : ∀ name other h k, (SequenceStore.after allocator history).get? name = some h →
    (SequenceStore.after allocator history).get? other = some k →
      ∃ s t, (Workspace.after history).get? name = some s ∧
        (Workspace.after history).get? other = some t ∧
        h.same k (SequenceStore.after allocator history).memory = (s == t) ∧
        h.isPrefixOf k (SequenceStore.after allocator history).memory = s.isSharedBy t

/-- Calls on one name leave all other sequences as they are, and identity of nodes tells which sequences go on
from which. Memory whose nodes are shared, counted and freed shows nothing else. -/
theorem sequences_persist (allocator : Allocator) (history : List SequenceCall) :
    Persistent allocator history := by
  obtain ⟨number, table, hm⟩ := Mirrors.after allocator history
  constructor
  case others =>
    intro call name hne
    have hkept : ((Workspace.after history).perform call).get? name
        = (Workspace.after history).get? name := Workspace.get?_perform_of_ne hne
    obtain ⟨number', table', hnext⟩ := hm.perform allocator call
    refine ⟨hkept, ?_⟩
    rw [hnext.view?_eq, hm.view?_eq, hkept]
  case measured => exact fun name s _ => ⟨s.length_eq, s.last?_eq⟩
  case appended =>
    intro name source step s hs
    exact ⟨_, Workspace.get?_append hs name step, s.toList_append ..⟩
  case collected =>
    refine fun name steps => ⟨_, (Workspace.get?_perform ..).trans (if_pos rfl), ?_⟩
    exact StepSequence.toList_extended _ steps .empty
  case copied =>
    intro name source s hs
    exact ⟨_, Workspace.get?_copy hs name, StepSequence.toList_extended _ s.toList .empty⟩
  case equal => exact StepSequence.beq_eq
  case shared =>
    exact fun name other s t hs ht => ⟨isSharedBy_iff_leadsTo hs ht, prefix_of_isSharedBy hs ht⟩
  case seen => exact hm.view?_eq
  case tested => exact fun name other h k => hm.tests_eq

end PropertyGraph

import Mathlib.Data.List.Infix
import PropertyGraph.Proofs.Fields
import PropertyGraph.Step.Sequence

/-!
# Histories of sequences

A history of calls makes, extends, copies and drops sequences under names. The nodes that are held form a
tree: nodes of one number have the same nodes before them. So a test that compares the numbers of nodes tells
whether one sequence is the beginning of the other, and by the history it can be told which ones are.
-/

namespace PropertyGraph

/-- What is done to sequences under names. -/
inductive SequenceCall where
  | new (name : String)
  | append (name source : String) (step : Step)
  | collect (name : String) (steps : List Step)
  | share (name source : String)
  | copy (name source : String)
  | drop (name : String)

/-- The name that a call is about. -/
def SequenceCall.target : SequenceCall → String
  | new name | append name _ _ | collect name _ | share name _ | copy name _ | drop name => name

/-- The name that stands for something else, or for nothing, after a call. A call without its source has no
effect. -/
def SequenceCall.replaces (w : Workspace) : SequenceCall → Option String
  | new name | collect name _ | drop name => some name
  | append name source _ | share name source | copy name source =>
    if (w.get? source).isSome then some name else none

namespace Workspace

def perform (w : Workspace) : SequenceCall → Workspace
  | .new name => w.new name
  | .append name source step => w.append name source step
  | .collect name steps => w.collect name steps
  | .share name source => w.share name source
  | .copy name source => w.copy name source
  | .drop name => w.remove name

/-- The sequences after a history. -/
def after (history : List SequenceCall) : Workspace := history.foldl perform empty

theorem after_concat (history : List SequenceCall) (call : SequenceCall) :
    after (history ++ [call]) = (after history).perform call := List.foldl_concat ..

end Workspace

namespace StepSequence

variable {s t : StepSequence} {next number : Nat} {step : Step} {steps : List Step}

/-- A sequence with steps appended to it, in nodes that are numbered in turn. -/
def extended (next : Nat) : List Step → StepSequence → StepSequence
  | [], s => s
  | step :: rest, s => extended (next + 1) rest (s.append next step)

theorem length_eq (s : StepSequence) : s.length = s.toList.length := by
  simp [length, toList, reversed]

theorem last?_eq (s : StepSequence) : s.last? = s.toList.getLast? := by
  rw [last?, toList, List.getLast?_reverse, reversed, List.head?_map]

theorem toList_append (number : Nat) (step : Step) (s : StepSequence) :
    (s.append number step).toList = s.toList ++ [step] := by
  simp [append, toList, reversed]

theorem toList_extended (next : Nat) (steps : List Step) (s : StepSequence) :
    (s.extended next steps).toList = s.toList ++ steps := by
  induction steps generalizing next s with
  | nil => exact (List.append_nil _).symm
  | cons step rest ih => rw [extended, ih, toList_append, List.append_assoc, List.singleton_append]

theorem beq_eq (s t : StepSequence) : (s == t) = (s.toList == t.toList) := by
  have hbeq : (s == t) = (s.length == t.length && s.toList == t.toList) := rfl
  have hlengths : ∀ xs ys : List Step, (xs == ys) = true → xs.length = ys.length := by
    intro xs
    induction xs with
    | nil =>
        intro ys h
        cases ys with
        | nil => rfl
        | cons y ys => cases h
    | cons x xs ih =>
        intro ys h
        cases ys with
        | nil => cases h
        | cons y ys => exact congrArg (· + 1) (ih ys (Bool.and_eq_true_iff.mp h).2)
  rw [hbeq, length_eq, length_eq]
  cases hequal : s.toList == t.toList with
  | false => exact Bool.and_false _
  | true => rw [hlengths _ _ hequal, beq_self_eq_true, Bool.true_and]

theorem of_mem_extended {node : SequenceNode} (h : node ∈ (s.extended next steps).nodes) :
    node ∈ s.nodes ∨ next ≤ node.number := by
  induction steps generalizing next s with
  | nil => exact .inl h
  | cons step rest ih =>
      rcases ih h with hmem | hle
      · rcases List.mem_cons.mp hmem with rfl | hmem
        · exact .inr (Nat.le_refl _)
        · exact .inl hmem
      · exact .inr (Nat.le_of_succ_le hle)

end StepSequence

namespace Workspace

variable {w : Workspace} {name other source : String} {s : StepSequence}

theorem get?_remove (w : Workspace) (name other : String) :
    (w.remove name).get? other = if other = name then none else w.get? other :=
  lookup_filter_ne w.sequences name other

theorem get?_set (name : String) (s : StepSequence) (w : Workspace) (other : String) :
    (w.set name s).get? other = if other = name then some s else w.get? other := by
  have hset : (w.set name s).get? other = ((name, s) :: (w.remove name).sequences).lookup other := rfl
  rw [hset, lookup_cons_eq]
  by_cases h : other = name
  · rw [if_pos h, if_pos h]
  · have hremove := get?_remove w name other
    rw [if_neg h] at hremove
    rw [if_neg h, if_neg h]
    exact hremove

theorem extend_eq (name : String) (s : StepSequence) (steps : List Step) (w : Workspace) :
    w.extend name s steps
      = set name (s.extended w.nextNumber steps) ⟨w.sequences, w.nextNumber + steps.length⟩ := by
  induction steps generalizing s w with
  | nil => rfl
  | cons step rest ih =>
      rw [extend, ih]
      dsimp only
      rw [List.length_cons, Nat.add_assoc, Nat.add_comm 1]
      rfl

theorem get?_extend (name : String) (s : StepSequence) (steps : List Step) (w : Workspace)
    (other : String) : (w.extend name s steps).get? other
      = if other = name then some (s.extended w.nextNumber steps) else w.get? other := by
  rw [extend_eq, get?_set]
  rfl

/-- The sequence that a call leaves under a name. -/
def made (w : Workspace) : SequenceCall → Option StepSequence
  | .new _ => some .empty
  | .append _ source step => (w.get? source).map (·.append w.nextNumber step)
  | .collect _ steps => some (StepSequence.empty.extended w.nextNumber steps)
  | .share _ source => w.get? source
  | .copy _ source => (w.get? source).map fun s => StepSequence.empty.extended w.nextNumber s.toList
  | .drop _ => none

/-- A call replaces what it says it does, and nothing else. -/
theorem get?_perform (w : Workspace) (call : SequenceCall) (name : String) :
    (w.perform call).get? name
      = if call.replaces w = some name then w.made call else w.get? name := by
  cases call with
  | new target => simp [perform, new, get?_set, SequenceCall.replaces, made, eq_comm]
  | collect target steps =>
      simp [perform, collect, get?_extend, SequenceCall.replaces, made, eq_comm]
  | drop target => simp [perform, get?_remove, SequenceCall.replaces, made, eq_comm]
  | append target source step =>
      cases hsource : w.get? source with
      | none => simp [perform, append, SequenceCall.replaces, hsource]
      | some s =>
          simp [perform, append, get?_extend, SequenceCall.replaces, made, hsource, eq_comm,
            StepSequence.extended]
  | share target source =>
      cases hsource : w.get? source with
      | none => simp [perform, share, SequenceCall.replaces, hsource]
      | some s => simp [perform, share, get?_set, SequenceCall.replaces, made, hsource, eq_comm]
  | copy target source =>
      cases hsource : w.get? source with
      | none => simp [perform, copy, SequenceCall.replaces, hsource]
      | some s =>
          simp [perform, copy, collect, get?_extend, SequenceCall.replaces, made, hsource, eq_comm]

theorem get?_append (hs : w.get? source = some s) (name : String) (step : Step) :
    (w.perform (.append name source step)).get? name = some (s.append w.nextNumber step) := by
  simp [get?_perform, SequenceCall.replaces, made, hs]

theorem get?_share (hs : w.get? source = some s) (name : String) :
    (w.perform (.share name source)).get? name = some s := by
  simp [get?_perform, SequenceCall.replaces, made, hs]

theorem get?_copy (hs : w.get? source = some s) (name : String) :
    (w.perform (.copy name source)).get? name
      = some (StepSequence.empty.extended w.nextNumber s.toList) := by
  simp [get?_perform, SequenceCall.replaces, made, hs]

theorem target_of_replaces {call : SequenceCall} (h : call.replaces w = some name) :
    call.target = name := by
  cases call with
  | new _ | collect _ _ | drop _ => exact Option.some.inj h
  | append _ source _ | share _ source | copy _ source =>
      dsimp only [SequenceCall.replaces] at h
      split at h
      · exact Option.some.inj h
      · cases h

theorem get?_perform_of_ne {call : SequenceCall} (h : name ≠ call.target) :
    (w.perform call).get? name = w.get? name := by
  rw [get?_perform, if_neg fun hreplaces => h (target_of_replaces hreplaces).symm]

end Workspace

/-! ### The tree of nodes

The test for a common beginning compares the numbers of nodes and not their steps. It is right because a number
is never used for two nodes with different beginnings, whatever is dropped in between. -/

/-- Lists of nodes grow from common beginnings: a node of one number has the same nodes before it wherever it
stands. -/
structure Grown (held : List (List SequenceNode)) (next : Nat) : Prop where
  lt : ∀ nodes ∈ held, ∀ node ∈ nodes, node.number < next
  same : ∀ nodes ∈ held, ∀ nodes' ∈ held, ∀ node rest node' rest',
    node :: rest <:+ nodes → node' :: rest' <:+ nodes' → node.number = node'.number →
      node :: rest = node' :: rest'

namespace Grown

variable {held held' : List (List SequenceNode)} {next next' : Nat} {nodes : List SequenceNode}

theorem mono (h : Grown held next) (hsubset : held' ⊆ held) (hle : next ≤ next') :
    Grown held' next' where
  lt nodes hnodes node hnode := Nat.lt_of_lt_of_le (h.lt nodes (hsubset hnodes) node hnode) hle
  same nodes hnodes nodes' hnodes' := h.same nodes (hsubset hnodes) nodes' (hsubset hnodes')

theorem nil (h : Grown held next) : Grown ([] :: held) next where
  lt := List.forall_mem_cons.mpr ⟨nofun, h.lt⟩
  same nodes hnodes nodes' hnodes' node rest node' rest' hsuffix hsuffix' := by
    rcases List.mem_cons.mp hnodes with rfl | hnodes
    · cases List.suffix_nil.mp hsuffix
    · rcases List.mem_cons.mp hnodes' with rfl | hnodes'
      · cases List.suffix_nil.mp hsuffix'
      · exact h.same nodes hnodes nodes' hnodes' node rest node' rest' hsuffix hsuffix'

/-- A new node leads to the nodes before it, and its number is taken by no other node. -/
theorem push (h : Grown (nodes :: held) next) (step : Step) :
    Grown ((⟨next, step⟩ :: nodes) :: held) (next + 1) := by
  have hold : ∀ {nodes' node rest}, nodes' ∈ (⟨next, step⟩ :: nodes) :: held →
      node :: rest <:+ nodes' → node :: rest = ⟨next, step⟩ :: nodes ∨
        ∃ old ∈ nodes :: held, node :: rest <:+ old := by
    intro nodes' node rest hnodes' hsuffix
    rcases List.mem_cons.mp hnodes' with rfl | hnodes'
    · refine (List.suffix_cons_iff.mp hsuffix).imp_right fun hsuffix => ?_
      exact ⟨nodes, List.mem_cons_self, hsuffix⟩
    · exact .inr ⟨nodes', List.mem_cons_of_mem _ hnodes', hsuffix⟩
  have hlt : ∀ {old node rest}, old ∈ nodes :: held → node :: rest <:+ old → node.number < next :=
    fun hmem hsuffix => h.lt _ hmem _ (hsuffix.subset List.mem_cons_self)
  constructor
  · refine List.forall_mem_cons.mpr ⟨List.forall_mem_cons.mpr ⟨Nat.lt_succ_self _, ?_⟩, ?_⟩
    · exact fun node hnode => Nat.lt_succ_of_lt (h.lt nodes List.mem_cons_self node hnode)
    · exact fun old hmem node hnode =>
        Nat.lt_succ_of_lt (h.lt old (List.mem_cons_of_mem _ hmem) node hnode)
  · intro _ hnodes _ hnodes' node rest node' rest' hsuffix hsuffix' hnumber
    rcases hold hnodes hsuffix with hnew | ⟨old, hmem, hsuffix⟩
    · rcases hold hnodes' hsuffix' with hnew' | ⟨old', hmem', hsuffix'⟩
      · exact hnew.trans hnew'.symm
      · cases hnew
        exact absurd hnumber (Nat.ne_of_gt (hlt hmem' hsuffix'))
    · rcases hold hnodes' hsuffix' with hnew' | ⟨old', hmem', hsuffix'⟩
      · cases hnew'
        exact absurd hnumber (Nat.ne_of_lt (hlt hmem hsuffix))
      · exact h.same old hmem old' hmem' node rest node' rest' hsuffix hsuffix' hnumber

theorem extended {s : StepSequence} (h : Grown (s.nodes :: held) next) (steps : List Step) :
    Grown ((s.extended next steps).nodes :: held) (next + steps.length) := by
  induction steps generalizing next s with
  | nil => exact h
  | cons step rest ih =>
      have hpushed : Grown ((s.append next step).nodes :: held) (next + 1) := h.push step
      have hrest := ih hpushed
      rwa [Nat.add_assoc, Nat.add_comm 1] at hrest

/-- One sequence shares the nodes of another exactly if the other goes on from it. -/
theorem isSharedBy_iff {s t : StepSequence} (h : Grown held next) (hs : s.nodes ∈ held)
    (ht : t.nodes ∈ held) : s.isSharedBy t = true ↔ s.nodes <:+ t.nodes := by
  unfold StepSequence.isSharedBy
  cases hnodes : s.nodes with
  | nil => exact iff_of_true rfl (List.nil_suffix)
  | cons last rest =>
      simp only [List.head?_cons, List.any_eq_true, beq_iff_eq]
      constructor
      · rintro ⟨node, hnode, hnumber⟩
        obtain ⟨later, before, hsplit⟩ := List.append_of_mem hnode
        have hsuffix : node :: before <:+ t.nodes := ⟨later, hsplit.symm⟩
        have hown : last :: rest <:+ s.nodes := by rw [hnodes]
        rw [h.same _ hs _ ht last rest node before hown hsuffix hnumber.symm]
        exact hsuffix
      · intro hsuffix
        exact ⟨last, hsuffix.subset List.mem_cons_self, rfl⟩

end Grown

namespace Workspace

variable {w : Workspace} {name : String} {s : StepSequence}

/-- The nodes of all sequences. -/
def held (w : Workspace) : List (List SequenceNode) := w.sequences.map (·.2.nodes)

theorem mem_held (h : w.get? name = some s) : s.nodes ∈ w.held :=
  List.mem_map.mpr ⟨(name, s), mem_of_lookup h, rfl⟩

theorem held_remove_subset (w : Workspace) (name : String) : (w.remove name).held ⊆ w.held :=
  List.map_subset _ (List.filter_subset_self _)

theorem grown_set (h : Grown (s.nodes :: w.held) w.nextNumber) (name : String) :
    Grown (w.set name s).held (w.set name s).nextNumber :=
  h.mono (List.cons_subset_cons _ (held_remove_subset w name)) (Nat.le_refl _)

theorem grown_extend (h : Grown (s.nodes :: w.held) w.nextNumber) (name : String)
    (steps : List Step) :
    Grown (w.extend name s steps).held (w.extend name s steps).nextNumber := by
  rw [extend_eq]
  exact grown_set (h.extended steps) name

theorem grown_perform (h : Grown w.held w.nextNumber) (call : SequenceCall) :
    Grown (w.perform call).held (w.perform call).nextNumber := by
  have hshared : ∀ {source s}, w.get? source = some s → Grown (s.nodes :: w.held) w.nextNumber :=
    fun hsource => h.mono (List.cons_subset.mpr ⟨mem_held hsource, List.Subset.refl _⟩)
      (Nat.le_refl _)
  cases call with
  | new name => exact grown_set h.nil name
  | collect name steps => exact grown_extend h.nil name steps
  | drop name => exact h.mono (held_remove_subset w name) (Nat.le_refl _)
  | append name source step =>
      rw [perform, append]
      cases hsource : w.get? source with
      | none => exact h
      | some s => exact grown_extend (hshared hsource) name [step]
  | share name source =>
      rw [perform, share]
      cases hsource : w.get? source with
      | none => exact h
      | some s => exact grown_set (hshared hsource) name
  | copy name source =>
      rw [perform, copy]
      cases hsource : w.get? source with
      | none => exact h
      | some s => exact grown_extend h.nil name s.toList

theorem grown_after (history : List SequenceCall) :
    Grown (after history).held (after history).nextNumber := by
  induction history using List.reverseRecOn with
  | nil => exact ⟨nofun, nofun⟩
  | append_singleton history call ih =>
      rw [after_concat]
      exact grown_perform ih call

end Workspace

/-- After a history one sequence has come from another, or from one that shared its nodes, by appending any
number of steps. -/
inductive LeadsTo : List SequenceCall → String → String → Prop
  | self {history : List SequenceCall} {name : String} :
      ((Workspace.after history).get? name).isSome = true → LeadsTo history name name
  | kept {history : List SequenceCall} {name other : String} {call : SequenceCall} :
      LeadsTo history name other → call.replaces (Workspace.after history) ≠ some name →
      call.replaces (Workspace.after history) ≠ some other →
      LeadsTo (history ++ [call]) name other
  | appended {history : List SequenceCall} {name source target : String} {step : Step} :
      LeadsTo history name source → name ≠ target →
      LeadsTo (history ++ [.append target source step]) name target
  | sharedAfter {history : List SequenceCall} {name source target : String} :
      LeadsTo history name source → name ≠ target →
      LeadsTo (history ++ [.share target source]) name target
  | sharedBefore {history : List SequenceCall} {source other target : String} :
      LeadsTo history source other → other ≠ target →
      LeadsTo (history ++ [.share target source]) target other

section Leading

variable {history : List SequenceCall} {name other : String} {s t : StepSequence}

open Workspace (after after_concat get?_perform get?_perform_of_ne)

theorem suffix_of_leadsTo (h : LeadsTo history name other) :
    ∃ s t, (after history).get? name = some s ∧ (after history).get? other = some t ∧
      s.nodes <:+ t.nodes := by
  induction h with
  | self hlive =>
      obtain ⟨s, hs⟩ := Option.isSome_iff_exists.mp hlive
      exact ⟨s, s, hs, hs, List.suffix_refl _⟩
  | kept _ hname hother ih =>
      obtain ⟨s, t, hs, ht, hsuffix⟩ := ih
      refine ⟨s, t, ?_, ?_, hsuffix⟩
      · rw [after_concat, get?_perform, if_neg hname, hs]
      · rw [after_concat, get?_perform, if_neg hother, ht]
  | @appended history name source target step _ hne ih =>
      obtain ⟨s, t, hs, ht, hsuffix⟩ := ih
      refine ⟨s, t.append (after history).nextNumber step, ?_, ?_, ?_⟩
      · rw [after_concat, get?_perform_of_ne hne, hs]
      · rw [after_concat, Workspace.get?_append ht]
      · exact hsuffix.trans (List.suffix_cons _ _)
  | @sharedAfter history name source target _ hne ih =>
      obtain ⟨s, t, hs, ht, hsuffix⟩ := ih
      refine ⟨s, t, ?_, ?_, hsuffix⟩
      · rw [after_concat, get?_perform_of_ne hne, hs]
      · rw [after_concat, Workspace.get?_share ht]
  | @sharedBefore history source other target _ hne ih =>
      obtain ⟨s, t, hs, ht, hsuffix⟩ := ih
      refine ⟨s, t, ?_, ?_, hsuffix⟩
      · rw [after_concat, Workspace.get?_share hs]
      · rw [after_concat, get?_perform_of_ne hne, ht]

/-- Only a sequence that is shared or appended to comes with nodes that were there before. -/
theorem of_made {w : Workspace} {call : SequenceCall} {node : SequenceNode}
    (hmade : w.made call = some t) (hnode : node ∈ t.nodes) (hold : node.number < w.nextNumber) :
    ∃ target source before, w.get? source = some before ∧
      (call = .share target source ∧ t = before ∨
        ∃ step, call = .append target source step ∧ t = before.append w.nextNumber step) := by
  have hfresh : ∀ {steps : List Step}, t ≠ StepSequence.empty.extended w.nextNumber steps := by
    rintro steps rfl
    have hnew := (StepSequence.of_mem_extended hnode).resolve_left List.not_mem_nil
    exact Nat.not_le.mpr hold hnew
  cases call with
  | new _ =>
      cases hmade
      cases hnode
  | collect _ steps => exact absurd (Option.some.inj hmade).symm hfresh
  | drop _ => cases hmade
  | append target source step =>
      obtain ⟨before, hbefore, rfl⟩ := Option.map_eq_some_iff.mp hmade
      exact ⟨target, source, before, hbefore, .inr ⟨step, rfl, rfl⟩⟩
  | share target source => exact ⟨target, source, t, hmade, .inl ⟨rfl, rfl⟩⟩
  | copy _ source =>
      obtain ⟨before, -, ht⟩ := Option.map_eq_some_iff.mp hmade
      exact absurd ht.symm hfresh

/-- The last call has made the one, the other, both or neither. What it has made goes on from the same nodes as
before the call, so the induction is on the history. -/
theorem leadsTo_of_suffix (hs : (after history).get? name = some s)
    (ht : (after history).get? other = some t) (hne : s.nodes ≠ []) (hsuffix : s.nodes <:+ t.nodes) :
    LeadsTo history name other := by
  induction history using List.reverseRecOn generalizing name other s t with
  | nil => cases hs
  | append_singleton history call ih =>
      obtain ⟨last, rest, hnodes⟩ := List.exists_cons_of_ne_nil hne
      have hmem : last ∈ s.nodes := hnodes ▸ List.mem_cons_self
      have hnumbers := (Workspace.grown_after history).lt
      have hlive : ((after (history ++ [call])).get? name).isSome = true := by
        rw [hs]
        rfl
      rw [after_concat, get?_perform] at hs ht
      by_cases hname : call.replaces (after history) = some name
      · by_cases hother : call.replaces (after history) = some other
        · cases hname.symm.trans hother
          exact .self hlive
        · rw [if_pos hname] at hs
          rw [if_neg hother] at ht
          have hold := hnumbers _ (Workspace.mem_held ht) last (hsuffix.subset hmem)
          have htarget := Workspace.target_of_replaces hname
          have hapart : other ≠ name := fun heq => hother (heq ▸ hname)
          obtain ⟨target, source, before, hbefore, ⟨rfl, rfl⟩ | ⟨step, rfl, rfl⟩⟩ :=
            of_made hs hmem hold
          · cases htarget
            exact .sharedBefore (ih hbefore ht hne hsuffix) hapart
          · cases hnodes
            exact absurd hold (Nat.lt_irrefl _)
      · rw [if_neg hname] at hs
        have hold := hnumbers _ (Workspace.mem_held hs) last hmem
        by_cases hother : call.replaces (after history) = some other
        · rw [if_pos hother] at ht
          have htarget := Workspace.target_of_replaces hother
          have hapart : name ≠ other := fun heq => hname (heq ▸ hother)
          obtain ⟨target, source, before, hbefore, ⟨rfl, rfl⟩ | ⟨step, rfl, rfl⟩⟩ :=
            of_made ht (hsuffix.subset hmem) hold
          · cases htarget
            exact .sharedAfter (ih hs hbefore hne hsuffix) hapart
          · cases htarget
            rcases List.suffix_cons_iff.mp hsuffix with heq | hsuffix
            · cases hnodes.symm.trans heq
              exact absurd hold (Nat.lt_irrefl _)
            · exact .appended (ih hs hbefore hne hsuffix) hapart
        · rw [if_neg hother] at ht
          exact .kept (ih hs ht hne hsuffix) hname hother

/-- A sequence is the beginning of another one by its nodes exactly if it is empty or the other one goes on
from it. -/
theorem isSharedBy_iff_leadsTo (hs : (after history).get? name = some s)
    (ht : (after history).get? other = some t) :
    s.isSharedBy t = true ↔ s.isEmpty = true ∨ LeadsTo history name other := by
  have hgrown := Workspace.grown_after history
  rw [hgrown.isSharedBy_iff (Workspace.mem_held hs) (Workspace.mem_held ht)]
  have hempty : s.isEmpty = true ↔ s.nodes = [] := List.isEmpty_iff
  rw [hempty]
  constructor
  · intro hsuffix
    by_cases hnil : s.nodes = []
    · exact .inl hnil
    · exact .inr (leadsTo_of_suffix hs ht hnil hsuffix)
  · rintro (hnil | hleads)
    · rw [hnil]
      exact List.nil_suffix
    · obtain ⟨s', t', hs', ht', hsuffix⟩ := suffix_of_leadsTo hleads
      cases hs.symm.trans hs'
      cases ht.symm.trans ht'
      exact hsuffix

/-- Where one goes on from the other, the steps of the one begin with those of the other. -/
theorem prefix_of_isSharedBy (hs : (after history).get? name = some s)
    (ht : (after history).get? other = some t) (h : s.isSharedBy t = true) :
    s.toList <+: t.toList := by
  have hsuffix := ((Workspace.grown_after history).isSharedBy_iff (Workspace.mem_held hs)
    (Workspace.mem_held ht)).mp h
  exact List.reverse_prefix.mpr (hsuffix.map SequenceNode.step)

end Leading

end PropertyGraph

import Mathlib.Algebra.Group.Nat.Defs
import Mathlib.Data.List.Nodup
import PropertyGraph.Proofs.Descent
import PropertyGraph.Proofs.Failing
import PropertyGraph.Proofs.Integrity

/-!
# The identity of elements

A number stands for one element for ever. This is shown for the past of a store, which is told change by
change: what an evaluation has changed before it fails is part of it, and so are the times at which the
store is cleared. Each moment of a past is the end of an earlier past. A past only has to consist of
changes for its elements to keep their identity, so the evaluations matter for one thing, that the
graphs of a history are reached in this way.
-/

namespace PropertyGraph

inductive Happening where
  | change (change : Change)
  | clear

namespace Happening

def apply (g : Graph) : Happening → Graph
  | .change made => made.apply g
  | .clear => g.clear

/-- The element that is created, with the number that it is given. -/
def created? (g : Graph) : Happening → Option (ElementKind × Nat)
  | .change (.addVertex label properties) => some (.vertex, (g.addVertex label properties).1)
  | .change (.addEdge label properties source target) =>
    some (.edge, (g.addEdge label properties source target).1)
  | .change (.update _ _ _) | .change (.remove _ _) | .clear => none

end Happening

namespace Graph

/-- The graph that a past has led to. -/
def resulting (past : List Happening) : Graph := past.foldl Happening.apply empty

/-- The elements that have been created, in order. -/
def creationsFrom (g : Graph) : List Happening → List (ElementKind × Nat)
  | [] => []
  | happening :: rest => (happening.created? g).toList ++ creationsFrom (happening.apply g) rest

def creations (past : List Happening) : List (ElementKind × Nat) := creationsFrom empty past

theorem resulting_append (past later : List Happening) :
    resulting (past ++ later) = later.foldl Happening.apply (resulting past) := List.foldl_append

theorem resulting_concat (past : List Happening) (happening : Happening) :
    resulting (past ++ [happening]) = happening.apply (resulting past) := resulting_append past _

theorem creationsFrom_append (g : Graph) (past later : List Happening) :
    creationsFrom g (past ++ later)
      = creationsFrom g past ++ creationsFrom (past.foldl Happening.apply g) later := by
  induction past generalizing g with
  | nil => rfl
  | cons happening past ih =>
      simp only [List.cons_append, creationsFrom, ih, List.append_assoc, List.foldl_cons]

theorem creations_concat (past : List Happening) (happening : Happening) :
    creations (past ++ [happening])
      = creations past ++ (happening.created? (resulting past)).toList := by
  rw [creations, creationsFrom_append, creationsFrom, creationsFrom, List.append_nil]
  rfl

end Graph

/-- Changes that an evaluation makes one after the other, each to the graph that the ones before it have
led to. -/
inductive Changes (access : Access) (steps : List Step) (start g : Graph) :
    List Change → Graph → Prop
  | none : Changes access steps start g [] g
  | more {changes : List Change} {change : Change} {now : Graph} :
      Changes access steps start g changes now → Makes access steps start change now →
      Changes access steps start g (changes ++ [change]) (change.apply now)

theorem Trail.exists_changes {access : Access} {steps : List Step} {start g g' : Graph}
    (h : Trail access steps start g g') : ∃ changes, Changes access steps start g changes g' := by
  induction h with
  | refl => exact ⟨[], .none⟩
  | tail _ hchange ih =>
      obtain ⟨changes, hchanges⟩ := ih
      obtain ⟨change, hmakes, rfl⟩ := hchange
      exact ⟨changes ++ [change], .more hchanges hmakes⟩

theorem Changes.eq_foldl {access : Access} {steps : List Step} {start g g' : Graph}
    {changes : List Change} (h : Changes access steps start g changes g') :
    g' = (changes.map Happening.change).foldl Happening.apply g := by
  induction h with
  | none => rfl
  | more _ _ ih =>
      rw [List.map_append, List.foldl_append, ← ih]
      rfl

/-- What happens to a store while commands are performed: each evaluation makes its changes, up to the
graph that it leaves, and clearing is a happening of its own. -/
inductive Chronicle : List Command → List Happening → Prop
  | start : Chronicle [] []
  | evaluate {history : List Command} {past : List Happening} {traversal : CompiledTraversal}
      {changes : List Change} :
      Chronicle history past →
      Changes (accessFor traversal.steps) traversal.steps (Graph.resulting past)
        (Graph.resulting past) changes ((Graph.resulting past).evaluate traversal).2 →
      Chronicle (history ++ [.evaluate traversal]) (past ++ changes.map .change)
  | clear {history : List Command} {past : List Happening} :
      Chronicle history past → Chronicle (history ++ [.clear]) (past ++ [.clear])

theorem trail_evaluate (g : Graph) (traversal : CompiledTraversal) :
    Trail (accessFor traversal.steps) traversal.steps g g (g.evaluate traversal).2 :=
  ((evaluate_ends g traversal).mono (fun _ _ h => h) fun _ _ h => h.2).state

namespace Chronicle

theorem resulting {history : List Command} {past : List Happening} (h : Chronicle history past) :
    Graph.resulting past = Graph.after history := by
  induction h with
  | start => rfl
  | evaluate _ hchanges ih =>
      rw [Graph.after_concat, Graph.resulting_append, ← hchanges.eq_foldl, ih]
      rfl
  | clear _ ih =>
      rw [Graph.after_concat, Graph.resulting_concat, ih]
      rfl

theorem exists_past (history : List Command) : ∃ past, Chronicle history past := by
  induction history using List.reverseRecOn with
  | nil => exact ⟨[], .start⟩
  | append_singleton history command ih =>
      obtain ⟨past, hpast⟩ := ih
      cases command with
      | evaluate traversal =>
          obtain ⟨changes, hchanges⟩ :=
            (trail_evaluate (Graph.resulting past) traversal).exists_changes
          exact ⟨_, .evaluate hpast hchanges⟩
      | clear => exact ⟨_, .clear hpast⟩

/-- The graphs between the commands are among the moments of a past. -/
theorem exists_earlier {history earlier : List Command} {past : List Happening}
    (h : Chronicle history past) (hearlier : earlier <+: history) :
    ∃ before, before <+: past ∧ Chronicle earlier before := by
  induction h with
  | start =>
      rw [List.prefix_nil.mp hearlier]
      exact ⟨[], List.prefix_rfl, .start⟩
  | evaluate hpast hchanges ih =>
      rcases List.prefix_concat_iff.mp hearlier with rfl | hearlier
      · exact ⟨_, List.prefix_rfl, .evaluate hpast hchanges⟩
      · obtain ⟨before, hbefore, hchronicle⟩ := ih hearlier
        exact ⟨before, hbefore.trans (List.prefix_append ..), hchronicle⟩
  | clear hpast ih =>
      rcases List.prefix_concat_iff.mp hearlier with rfl | hearlier
      · exact ⟨_, List.prefix_rfl, .clear hpast⟩
      · obtain ⟨before, hbefore, hchronicle⟩ := ih hearlier
        exact ⟨before, hbefore.trans (List.prefix_append ..), hchronicle⟩

end Chronicle

/-! ### Numbers -/

section Numbers

open PropertyGraph.Graph

variable {g : Graph} {happening : Happening} {kind : ElementKind} {id : Nat}

theorem Descends.apply (happening : Happening) (g : Graph) : Descends g (happening.apply g) := by
  cases happening with
  | change change =>
      cases change with
      | addVertex label properties => exact persists.addVertex label properties g
      | addEdge label properties source target =>
          exact persists.addEdge label properties source target g
      | update kind id properties => exact persists.update kind id properties g
      | remove kind id => exact persists.remove kind id g
  | clear => exact .clear g

theorem Descends.resulting {earlier past : List Happening} (h : earlier <+: past) :
    Descends (Graph.resulting earlier) (Graph.resulting past) := by
  obtain ⟨later, rfl⟩ := h
  induction later using List.reverseRecOn with
  | nil =>
      rw [List.append_nil]
      exact .refl _
  | append_singleton later happening ih =>
      rw [← List.append_assoc, resulting_concat]
      exact ih.trans (.apply happening _)

theorem counter_apply :
    (happening.apply g).counter = g.counter + (happening.created? g).toList.length := by
  cases happening with
  | change change =>
      cases change with
      | addVertex _ _ | addEdge _ _ _ _ => rfl
      | update kind id properties => exact Descends.counter_update kind id properties g
      | remove kind id => exact Descends.counter_remove kind id g
  | clear => rfl

theorem ids_addVertex {label : String} {properties : List Property} :
    (g.addVertex label properties).2.ids .vertex = g.ids .vertex ++ [g.counter + 1] :=
  Evolves.keys_addVertex label properties g

theorem ids_addEdge {label : String} {properties : List Property} {source target : Nat} :
    (g.addEdge label properties source target).2.ids .edge = g.ids .edge ++ [g.counter + 1] :=
  g.edges.keys_push (g.counter + 1) _ (lt_counter_succ g.edges_le)

/-- The element that is created gets the next number, and the others of both kinds stay. -/
theorem of_created? (h : happening.created? g = some (kind, id)) :
    id = g.counter + 1 ∧ ∀ other, (happening.apply g).ids other
      = if other = kind then g.ids other ++ [id] else g.ids other := by
  unfold Happening.created? at h
  split at h <;> cases h
  · refine ⟨rfl, fun other => ?_⟩
    cases other with
    | vertex => exact ids_addVertex
    | edge => rfl
  · refine ⟨rfl, fun other => ?_⟩
    cases other with
    | vertex => rfl
    | edge => exact ids_addEdge

theorem mem_ids_of_created? (h : happening.created? g = some (kind, id)) :
    id ∈ (happening.apply g).ids kind := by
  rw [(of_created? h).2 kind, if_pos rfl]
  exact List.mem_append_right _ (List.mem_singleton_self id)

/-- An element that is there after a happening was there before, or the happening has created it. -/
theorem of_mem_ids_apply (h : id ∈ (happening.apply g).ids kind) :
    id ∈ g.ids kind ∨ happening.created? g = some (kind, id) := by
  cases hcreated : happening.created? g with
  | none =>
      have hle := le_counter_of_mem_ids h
      rw [counter_apply, hcreated] at hle
      exact .inl ((Descends.apply happening g).mem_ids h hle)
  | some element =>
      obtain ⟨created, number⟩ := element
      rw [(of_created? hcreated).2 kind] at h
      split at h
      · subst kind
        rcases List.mem_append.mp h with hold | hnew
        · exact .inl hold
        · rw [List.mem_singleton.mp hnew]
          exact .inr rfl
      · exact .inl h

/-- The elements that have been created are numbered in turn, and the counter counts them. -/
theorem numbers_of_creations (past : List Happening) :
    (creations past).map (·.2) = List.range' 1 (creations past).length ∧
      (resulting past).counter = (creations past).length := by
  induction past using List.reverseRecOn with
  | nil => exact ⟨rfl, rfl⟩
  | append_singleton past happening ih =>
      obtain ⟨hnumbers, hcounter⟩ := ih
      rw [creations_concat, resulting_concat, counter_apply, List.length_append, ← hcounter]
      refine ⟨?_, rfl⟩
      cases hcreated : happening.created? (resulting past) with
      | none => simpa [hcounter] using hnumbers
      | some element =>
          have hnext : element.2 = (creations past).length + 1 := by
            rw [(of_created? hcreated).1, hcounter]
          rw [Option.toList_some, List.map_append, hnumbers, hcounter, List.length_singleton,
            List.range'_1_concat, List.map_singleton, hnext, Nat.add_comm 1]

theorem creations_mono {earlier past : List Happening} (h : earlier <+: past) :
    creations earlier <+: creations past := by
  obtain ⟨later, rfl⟩ := h
  exact ⟨_, (creationsFrom_append empty earlier later).symm⟩

/-- What is there has been created. -/
theorem mem_creations_of_mem_ids {past : List Happening} (h : id ∈ (resulting past).ids kind) :
    (kind, id) ∈ creations past := by
  induction past using List.reverseRecOn with
  | nil => cases kind <;> cases h
  | append_singleton past happening ih =>
      rw [resulting_concat] at h
      rw [creations_concat, List.mem_append, Option.mem_toList]
      rcases of_mem_ids_apply h with hold | hcreated
      · exact .inl (ih hold)
      · exact .inr hcreated

theorem number_of_mem_creations {past : List Happening} (h : (kind, id) ∈ creations past) :
    1 ≤ id ∧ id ≤ (resulting past).counter := by
  obtain ⟨hnumbers, hcounter⟩ := numbers_of_creations past
  have hid : id ∈ (creations past).map (·.2) := List.mem_map_of_mem h
  rw [hnumbers, List.mem_range'_1] at hid
  omega

/-- A number has been given to one element only. -/
theorem kind_of_mem_creations {past : List Happening} {kind' : ElementKind}
    (h : (kind, id) ∈ creations past) (h' : (kind', id) ∈ creations past) : kind' = kind := by
  have hnodup : ((creations past).map (·.2)).Nodup := by
    rw [(numbers_of_creations past).1]
    exact List.nodup_range'
  have heq := List.inj_on_of_nodup_map hnodup h' h rfl
  exact congrArg Prod.fst heq

end Numbers

open PropertyGraph.Graph in
/-- Throughout a past, an element is what has been created under its number. -/
structure KeepsIdentity (past : List Happening) : Prop where
  /-- The counter is the number of creations. -/
  counted : (resulting past).counter = (creations past).length
  /-- A new element is numbered past all numbers that were ever given. -/
  fresh : ∀ earlier happening later kind id, past = earlier ++ happening :: later →
    happening.created? (resulting earlier) = some (kind, id) →
    id ∈ (resulting (earlier ++ [happening])).ids kind ∧ id = (resulting earlier).counter + 1 ∧
      ∀ element ∈ creations earlier, element.2 < id
  present : ∀ earlier, earlier <+: past → ∀ kind, ∀ id ∈ (resulting earlier).ids kind,
    1 ≤ id ∧ id ≤ (resulting earlier).counter ∧ (kind, id) ∈ creations earlier
  /-- No number stands for a vertex and an edge. -/
  apart : ∀ earlier, earlier <+: past → ∀ id ∈ (resulting earlier).ids .vertex,
    id ∉ (resulting earlier).ids .edge
  /-- What was created and is not there any more does not come back. -/
  gone : ∀ earlier later, earlier <+: later → later <+: past → ∀ kind id,
    (kind, id) ∈ creations earlier → id ∉ (resulting earlier).ids kind →
    ∀ kind', id ∉ (resulting later).ids kind'
  /-- What is still there is what it was. -/
  kept : ∀ earlier later, earlier <+: later → later <+: past → ∀ kind kind' id,
    id ∈ (resulting earlier).ids kind → id ∈ (resulting later).ids kind' →
    kind' = kind ∧ (resulting later).nature? kind id = (resulting earlier).nature? kind id
  /-- Identifiers as they are returned tell the numbers, as long as these fit into 63 bits. -/
  told : (creations past).length < 2 ^ 63 → ∀ id ≤ (resulting past).counter,
    ∃ i : Int64, elementId id = .int i ∧ i.toInt = id

theorem keepsIdentity (past : List Happening) : KeepsIdentity past where
  counted := (numbers_of_creations past).2
  fresh := by
    rintro earlier happening later kind id rfl hcreated
    obtain ⟨hid, -⟩ := of_created? hcreated
    refine ⟨Graph.resulting_concat .. ▸ mem_ids_of_created? hcreated, hid, ?_⟩
    intro element helement
    have hle : element.2 ≤ (Graph.resulting earlier).counter := (number_of_mem_creations helement).2
    omega
  present := by
    intro earlier _ kind id hid
    have hcreated := mem_creations_of_mem_ids hid
    obtain ⟨hpos, hle⟩ := number_of_mem_creations hcreated
    exact ⟨hpos, hle, hcreated⟩
  apart := by
    intro earlier _ id hvertex hedge
    cases kind_of_mem_creations (mem_creations_of_mem_ids hvertex) (mem_creations_of_mem_ids hedge)
  gone := by
    intro earlier later hlater _ kind id hcreated hgone kind' hback
    have hboth := (creations_mono hlater).subset hcreated
    cases kind_of_mem_creations hboth (mem_creations_of_mem_ids hback)
    exact hgone ((Descends.resulting hlater).mem_ids hback (number_of_mem_creations hcreated).2)
  kept := by
    intro earlier later hlater _ kind kind' id hbefore hafter
    have hboth := (creations_mono hlater).subset (mem_creations_of_mem_ids hbefore)
    cases kind_of_mem_creations hboth (mem_creations_of_mem_ids hafter)
    obtain ⟨nature, hnature⟩ := mem_ids_iff.mp hafter
    refine ⟨rfl, hnature.trans ?_⟩
    exact ((Descends.resulting hlater).nature hnature (le_counter_of_mem_ids hbefore)).symm
  told := by
    intro hfew id hid
    rw [(numbers_of_creations past).2] at hid
    exact ⟨_, rfl, Int64.toInt_ofNat_of_lt (Nat.lt_of_le_of_lt hid hfew)⟩

/-- Whatever is asked of a store that starts empty, its elements keep their identity throughout its past,
which leads to the graph that is there after the commands and, before that, to the graphs between
them. -/
theorem elements_keep_identity (history : List Command) :
    (∃ past, Chronicle history past) ∧
    ∀ past, Chronicle history past →
      Graph.resulting past = Graph.after history ∧
      (∀ earlier, earlier <+: history →
        ∃ before, before <+: past ∧ Graph.resulting before = Graph.after earlier) ∧
      KeepsIdentity past := by
  refine ⟨Chronicle.exists_past history, fun past hpast => ⟨hpast.resulting, ?_, keepsIdentity past⟩⟩
  intro earlier hearlier
  obtain ⟨before, hbefore, hchronicle⟩ := hpast.exists_earlier hearlier
  exact ⟨before, hbefore, hchronicle.resulting⟩

/-- A vertex that a failed evaluation has left is cleared away, and the next one does not get its
number. -/
theorem number_not_given_again :
    let unknown : List Step := [.selectById .vertex [.int 99]]
    let history : List Command :=
      [.evaluate ⟨[.addVertex "person" [], .addEdge "knows" [] none (some unknown)]⟩, .clear,
        .evaluate ⟨[.addVertex "person" []]⟩]
    (Graph.after history).ids .vertex = [2] ∧
    ∃ past, Chronicle history past ∧ (Graph.creations past).length < 2 ^ 63 ∧
      KeepsIdentity past := by
  intro unknown history
  obtain ⟨⟨past, hpast⟩, hkeeps⟩ := elements_keep_identity history
  obtain ⟨hresulting, -, hidentity⟩ := hkeeps past hpast
  refine ⟨rfl, past, hpast, ?_, hidentity⟩
  have hcounter : (Graph.after history).counter = 2 := rfl
  rw [← hidentity.counted, hresulting, hcounter]
  decide

end PropertyGraph

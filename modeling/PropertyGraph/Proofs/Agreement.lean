import PropertyGraph.Proofs.Ensures

/-!
# Two computations that agree

A statement about two evaluations compares two computations that run from the same state. They agree when
they fail alike or have related results, and leave the same state either way. The rules follow the ways in
which computations are put together, as those for `Ensures` do, but relate both sides at once: agreement
up to the loop before makes the loop after start from equal states.
-/

namespace PropertyGraph

variable {ε σ α β γ δ : Type}

/-- From each state both computations fail alike or have related results, and leave the same state. -/
def Agree (R : α → β → Prop) (m : ExceptT ε (StateM σ) α) (m' : ExceptT ε (StateM σ) β) : Prop :=
  ∀ s, (∃ e s', m.run s = (.error e, s') ∧ m'.run s = (.error e, s')) ∨
    ∃ a b s', R a b ∧ m.run s = (.ok a, s') ∧ m'.run s = (.ok b, s')

namespace Agree

variable {R : α → β → Prop} {S : γ → δ → Prop} {m : ExceptT ε (StateM σ) α}
  {m' : ExceptT ε (StateM σ) β}

theorem refl (m : ExceptT ε (StateM σ) α) : Agree Eq m m := by
  intro s
  rcases hrun : m.run s with ⟨e | a, s'⟩
  · exact .inl ⟨e, s', rfl, rfl⟩
  · exact .inr ⟨a, a, s', rfl, rfl, rfl⟩

theorem eq {m m' : ExceptT ε (StateM σ) α} (h : Agree Eq m m') : m = m' := by
  apply ExceptT.ext
  funext s
  rcases h s with ⟨e, s', hm, hm'⟩ | ⟨a, _, s', rfl, hm, hm'⟩
  · exact hm.trans hm'.symm
  · exact hm.trans hm'.symm

theorem pure {a : α} {b : β} (h : R a b) :
    Agree R (Pure.pure a : ExceptT ε (StateM σ) α) (Pure.pure b) :=
  fun s => .inr ⟨a, b, s, h, rfl, rfl⟩

theorem bind {f : α → ExceptT ε (StateM σ) γ} {f' : β → ExceptT ε (StateM σ) δ} (h : Agree R m m')
    (hf : ∀ a b, R a b → Agree S (f a) (f' b)) : Agree S (m >>= f) (m' >>= f') := by
  intro s
  rcases h s with ⟨e, s', hm, hm'⟩ | ⟨a, b, s', hR, hm, hm'⟩
  · exact .inl ⟨e, s', run_bind_of_error hm, run_bind_of_error hm'⟩
  · rw [run_bind_of_ok hm, run_bind_of_ok hm']
    exact hf a b hR s'

/-- Loops over the same list whose rounds agree. -/
theorem mapM {f : γ → ExceptT ε (StateM σ) α} {f' : γ → ExceptT ε (StateM σ) β} {xs : List γ}
    (h : ∀ x ∈ xs, Agree R (f x) (f' x)) : Agree (List.Forall₂ R) (xs.mapM f) (xs.mapM f') := by
  induction xs with
  | nil => exact pure .nil
  | cons x rest ih =>
      obtain ⟨hx, hrest⟩ := List.forall_mem_cons.mp h
      rw [List.mapM_cons, List.mapM_cons]
      refine bind hx fun a b hR => bind (ih hrest) fun as bs hRs => ?_
      exact pure (.cons hR hRs)

end Agree

end PropertyGraph

import Mathlib.Data.List.Basic
import PropertyGraph.Engine.Evaluate

/-!
# What a computation ensures

Building a traversal and evaluating one are both computations that may fail and keep a state, and in
both the state survives a failure. `Ensures` says how such a computation ends when it starts in a given
state: one condition for its result, one for its failure, each together with the state it leaves. The
rules below follow the ways in which computations are put together. For a loop over a list the rule
carries a relation between states, which has to be reflexive and transitive, because a loop may fail
after any number of its rounds.
-/

namespace PropertyGraph

variable {ε σ α β : Type}

section Run

variable {m : ExceptT ε (StateM σ) α} {f : α → ExceptT ε (StateM σ) β} {s s' : σ}

theorem run_bind (m : ExceptT ε (StateM σ) α) (f : α → ExceptT ε (StateM σ) β) (s : σ) :
    (m >>= f).run s = match (m.run s : Except ε α × σ) with
      | (.ok a, s') => (f a).run s'
      | (.error e, s') => (.error e, s') := by
  rw [ExceptT.run_bind]
  change (StateT.bind m.run _ : StateM σ (Except ε β)) s = _
  rcases hm : m.run s with ⟨_ | _, s'⟩ <;> simp only [StateT.bind, hm] <;> rfl

theorem run_bind_of_ok {a : α} (h : m.run s = (.ok a, s')) : (m >>= f).run s = (f a).run s' := by
  rw [run_bind, h]

theorem run_bind_of_error {e : ε} (h : m.run s = (.error e, s')) :
    (m >>= f).run s = (.error e, s') := by
  rw [run_bind, h]

theorem run_mapM_of_error {earlier later : List α} {x : α} {bs : List β} {between : σ} {e : ε}
    (hearlier : (earlier.mapM f).run s = (.ok bs, between))
    (hx : (f x).run between = (.error e, s')) :
    ((earlier ++ x :: later).mapM f).run s = (.error e, s') := by
  have hlater : ((x :: later).mapM f).run between = (.error e, s') := by
    rw [List.mapM_cons, run_bind_of_error hx]
  rw [List.mapM_append, run_bind_of_ok hearlier, run_bind_of_error hlater]

theorem run_mapM_snoc {xs : List α} {x : α} {bs : List β} {b : β} {between : σ}
    (hxs : (xs.mapM f).run s = (.ok bs, between)) (hx : (f x).run between = (.ok b, s')) :
    ((xs ++ [x]).mapM f).run s = (.ok (bs ++ [b]), s') := by
  have hsingle : ([x].mapM f).run between = (.ok [b], s') := by
    rw [List.mapM_cons, run_bind_of_ok hx, List.mapM_nil]
    rfl
  rw [List.mapM_append, run_bind_of_ok hxs, run_bind_of_ok hsingle]
  rfl

end Run

/-- How a computation ends when it starts in a state. -/
def Ensures (m : ExceptT ε (StateM σ) α) (s : σ) (ok : α → σ → Prop) (failed : ε → σ → Prop) : Prop :=
  match (m.run s : Except ε α × σ) with
  | (.ok a, s') => ok a s'
  | (.error e, s') => failed e s'

namespace Ensures

variable {m : ExceptT ε (StateM σ) α} {s s' : σ} {ok ok' : α → σ → Prop} {failed failed' : ε → σ → Prop}

theorem of_ok {a : α} (h : Ensures m s ok failed) (hrun : m.run s = (.ok a, s')) : ok a s' := by
  rw [Ensures, hrun] at h
  exact h

theorem of_error {e : ε} (h : Ensures m s ok failed) (hrun : m.run s = (.error e, s')) :
    failed e s' := by
  rw [Ensures, hrun] at h
  exact h

theorem state {P : σ → Prop} (h : Ensures m s (fun _ s' => P s') fun _ s' => P s') :
    P (m.run s : Except ε α × σ).2 := by
  rcases hrun : m.run s with ⟨_ | _, s'⟩
  · exact h.of_error hrun
  · exact h.of_ok hrun

theorem mono (h : Ensures m s ok failed) (hok : ∀ a s', ok a s' → ok' a s')
    (hfailed : ∀ e s', failed e s' → failed' e s') : Ensures m s ok' failed' := by
  rcases hrun : m.run s with ⟨_ | _, s'⟩ <;> rw [Ensures, hrun]
  · exact hfailed _ _ (h.of_error hrun)
  · exact hok _ _ (h.of_ok hrun)

theorem and (h : Ensures m s ok failed) (h' : Ensures m s ok' failed') :
    Ensures m s (fun a s' => ok a s' ∧ ok' a s') fun e s' => failed e s' ∧ failed' e s' := by
  rcases hrun : m.run s with ⟨_ | _, s'⟩ <;> rw [Ensures, hrun]
  · exact ⟨h.of_error hrun, h'.of_error hrun⟩
  · exact ⟨h.of_ok hrun, h'.of_ok hrun⟩

theorem trivial : Ensures m s (fun _ _ => True) fun _ _ => True := by
  rcases hrun : m.run s with ⟨_ | _, s'⟩ <;> rw [Ensures, hrun] <;> exact True.intro

theorem run : Ensures m s (fun a s' => m.run s = (.ok a, s')) fun e s' => m.run s = (.error e, s') := by
  rcases hrun : m.run s with ⟨_ | _, s'⟩ <;> rw [Ensures, hrun]

theorem pure {a : α} (h : ok a s) : Ensures (Pure.pure a) s ok failed := h

theorem bind {f : α → ExceptT ε (StateM σ) β} {ok : β → σ → Prop}
    (h : Ensures m s (fun a s' => Ensures (f a) s' ok failed) failed) :
    Ensures (m >>= f) s ok failed := by
  rcases hrun : m.run s with ⟨e | a, s'⟩
  · rw [Ensures, run_bind_of_error hrun]
    exact h.of_error hrun
  · rw [Ensures, run_bind_of_ok hrun]
    exact h.of_ok hrun

/-- A loop over a list, where each round knows the rounds before it. What holds of a result has to stay
true while the state moves on. -/
theorem mapM_after {R : σ → σ → Prop} {P : β → σ → Prop} {F : ε → σ → Prop} {xs : List α}
    {f : α → ExceptT ε (StateM σ) β} (hrefl : ∀ s, R s s)
    (htrans : ∀ {s₁ s₂ s₃}, R s₁ s₂ → R s₂ s₃ → R s₁ s₃)
    (hkept : ∀ {b s₁ s₂}, R s₁ s₂ → P b s₁ → P b s₂)
    (hround : ∀ earlier x later bs s', xs = earlier ++ x :: later →
      (earlier.mapM f).run s = (.ok bs, s') → R s s' →
      Ensures (f x) s' (fun b s'' => P b s'' ∧ R s' s'') fun e s'' => F e s'' ∧ R s' s'') :
    Ensures (xs.mapM f) s
      (fun bs s' => bs.length = xs.length ∧ (∀ b ∈ bs, P b s') ∧ R s s')
      fun e s' => F e s' ∧ R s s' := by
  -- the rounds that are left, after any number of earlier ones
  have hleft : ∀ left earlier bs s', xs = earlier ++ left →
      (earlier.mapM f).run s = (.ok bs, s') → R s s' →
      Ensures (left.mapM f) s'
        (fun bs s'' => bs.length = left.length ∧ (∀ b ∈ bs, P b s'') ∧ R s' s'')
        fun e s'' => F e s'' ∧ R s' s'' := by
    intro left
    induction left with
    | nil =>
        intro _ _ s' _ _ _
        rw [List.mapM_nil]
        exact .pure ⟨rfl, by simp, hrefl s'⟩
    | cons x later ih =>
        intro earlier bs s' hxs hearlier hR
        rw [List.mapM_cons]
        have hx := (hround earlier x later bs s' hxs hearlier hR).and run
        refine bind (hx.mono ?_ fun _ _ h => h.1)
        intro b s₁ ⟨⟨hb, hR₁⟩, hrun⟩
        have hrest := ih (earlier ++ [x]) (bs ++ [b]) s₁ (by simp [hxs])
          (run_mapM_snoc hearlier hrun) (htrans hR hR₁)
        refine bind (hrest.mono ?_ fun e s' ⟨he, hR'⟩ => ⟨he, htrans hR₁ hR'⟩)
        intro bs' s₂ ⟨hlength, hbs, hR₂⟩
        refine .pure ⟨by simp [hlength], ?_, htrans hR₁ hR₂⟩
        intro c hc
        rcases List.mem_cons.mp hc with rfl | hc
        · exact hkept hR₂ hb
        · exact hbs c hc
  exact hleft xs [] [] s rfl rfl (hrefl s)

theorem mapM_along {R : σ → σ → Prop} {P : β → σ → Prop} {xs : List α}
    {f : α → ExceptT ε (StateM σ) β} (hrefl : ∀ s, R s s)
    (htrans : ∀ {s₁ s₂ s₃}, R s₁ s₂ → R s₂ s₃ → R s₁ s₃)
    (hkept : ∀ {b s₁ s₂}, R s₁ s₂ → P b s₁ → P b s₂)
    (hround : ∀ x ∈ xs, ∀ s', R s s' →
      Ensures (f x) s' (fun b s'' => P b s'' ∧ R s' s'') fun _ s'' => R s' s'') :
    Ensures (xs.mapM f) s (fun bs s' => (∀ b ∈ bs, P b s') ∧ R s s') fun _ s' => R s s' := by
  refine (mapM_after (P := P) (F := fun _ _ => True) hrefl htrans hkept ?_).mono (fun _ _ h => h.2)
    fun _ _ h => h.2
  intro _ x _ _ s' hxs _ hR
  exact (hround x (by simp [hxs]) s' hR).mono (fun _ _ h => h) fun _ _ h => ⟨True.intro, h⟩

theorem mapM_pure {P : β → Prop} {F : ε → Prop} {xs : List α} {f : α → ExceptT ε (StateM σ) β}
    (hround : ∀ x ∈ xs, ∀ s, Ensures (f x) s (fun b _ => P b) fun e _ => F e) :
    Ensures (xs.mapM f) s (fun bs _ => bs.length = xs.length ∧ ∀ b ∈ bs, P b)
      fun e _ => F e := by
  refine (mapM_after (R := fun _ _ => True) (P := fun b _ => P b) (F := fun e _ => F e)
    (fun _ => True.intro) (fun _ _ => True.intro) (fun _ h => h) ?_).mono
    (fun _ _ h => ⟨h.1, h.2.1⟩) fun _ _ h => h.1
  intro _ x _ _ s' hxs _ _
  exact (hround x (by simp [hxs]) s').mono (fun _ _ h => ⟨h, True.intro⟩)
    fun _ _ h => ⟨h, True.intro⟩

theorem forM_along {R : σ → σ → Prop} {xs : List α} {f : α → ExceptT ε (StateM σ) PUnit}
    (hrefl : ∀ s, R s s) (htrans : ∀ {s₁ s₂ s₃}, R s₁ s₂ → R s₂ s₃ → R s₁ s₃)
    (hround : ∀ x ∈ xs, ∀ s', Ensures (f x) s' (fun _ s'' => R s' s'') fun _ s'' => R s' s'') :
    Ensures (xs.forM f) s (fun _ s' => R s s') fun _ s' => R s s' := by
  induction xs generalizing s with
  | nil => exact hrefl s
  | cons x xs ih =>
      refine bind ((hround x (by simp) s).mono ?_ fun _ _ h => h)
      intro _ s₁ hR
      have hrest := ih (s := s₁) fun y hy => hround y (by simp [hy])
      exact hrest.mono (fun _ _ h => htrans hR h) fun _ _ h => htrans hR h

theorem forM_pure {F : ε → Prop} {xs : List α} {f : α → ExceptT ε (StateM σ) PUnit}
    (hround : ∀ x ∈ xs, ∀ s, Ensures (f x) s (fun _ _ => True) fun e _ => F e) :
    Ensures (xs.forM f) s (fun _ _ => True) fun e _ => F e := by
  induction xs generalizing s with
  | nil => exact True.intro
  | cons x xs ih =>
      refine bind ((hround x (by simp) s).mono ?_ fun _ _ h => h)
      intro _ s₁ _
      exact ih fun y hy => hround y (by simp [hy])

end Ensures

end PropertyGraph

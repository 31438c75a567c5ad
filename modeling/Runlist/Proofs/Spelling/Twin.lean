import Runlist.Proofs.Step

/-!
# Two runs side by side

Two steps that begin in related states may do different things on the way. What matters is that both
succeed or both fail, that their results are related, and that the states in which they end are
related again.

* `Both`: two results, of which both are values or both are failures.
* `TwinAt`, `Twin`: **two steps end alike**, from two states or wherever they begin alike.
  `Twin.bind` and the like: one rule for each way to build a step.
-/

namespace Runlist

/-- **Two results of one kind**: two values that are related, or two failures that are. -/
inductive Both {ε ε' α β : Type} (E : ε → ε' → Prop) (Q : α → β → Prop) :
    Except ε α → Except ε' β → Prop
  | ok {a : α} {b : β} : Q a b → Both E Q (.ok a) (.ok b)
  | error {e : ε} {e' : ε'} : E e e' → Both E Q (.error e) (.error e')

namespace Both

variable {ε ε' δ δ' α β α' β' : Type} {E : ε → ε' → Prop} {Q : α → β → Prop} {r : Except ε α}
  {r' : Except ε' β}

theorem mapError (h : Both E Q r r') {D : δ → δ' → Prop} {f : ε → δ} {g : ε' → δ'}
    (hD : ∀ e e', E e e' → D (f e) (g e')) : Both D Q (r.mapError f) (r'.mapError g) := by
  cases h with
  | ok h => exact .ok h
  | error h => exact .error (hD _ _ h)

theorem refl {E : ε → ε → Prop} {Q : α → α → Prop} (hE : ∀ e, E e e) (hQ : ∀ a, Q a a)
    (r : Except ε α) : Both E Q r r := by
  cases r with
  | ok a => exact .ok (hQ a)
  | error e => exact .error (hE e)

theorem eq {r r' : Except ε α} (h : Both Eq Eq r r') : r' = r := by
  cases h with
  | ok h => rw [h]
  | error h => rw [h]

theorem of_isNone (h : r.toOption.isNone) (h' : r'.toOption.isNone) :
    Both (fun _ _ => True) Q r r' := by
  cases r with
  | ok a => cases h
  | error e =>
    cases r' with
    | ok b => cases h'
    | error e' => exact .error trivial

end Both

section Rules

variable {ε σ α β γ δ : Type} {R : σ → σ → Prop} {E : ε → ε → Prop} {Q : α → β → Prop}
  {x : ExceptT ε (StateM σ) α} {y : ExceptT ε (StateM σ) β}

/-- **Two steps end alike** from two states: their results are of one kind, and the states in which
they end are related. -/
def TwinAt (R : σ → σ → Prop) (E : ε → ε → Prop) (Q : α → β → Prop) (x : ExceptT ε (StateM σ) α)
    (y : ExceptT ε (StateM σ) β) (s s' : σ) : Prop :=
  Both E Q (x.run.run s).1 (y.run.run s').1 ∧ R (x.run.run s).2 (y.run.run s').2

/-- **Two steps end alike** wherever they begin alike. -/
def Twin (R : σ → σ → Prop) (E : ε → ε → Prop) (Q : α → β → Prop) (x : ExceptT ε (StateM σ) α)
    (y : ExceptT ε (StateM σ) β) : Prop :=
  ∀ s s', R s s' → TwinAt R E Q x y s s'

theorem TwinAt.bind {s s' : σ} {Q' : γ → δ → Prop} {f : α → ExceptT ε (StateM σ) γ}
    {g : β → ExceptT ε (StateM σ) δ} (hx : TwinAt R E Q x y s s')
    (hf : ∀ a b, Q a b → Twin R E Q' (f a) (g b)) : TwinAt R E Q' (x >>= f) (y >>= g) s s' := by
  unfold TwinAt
  rw [run_bind, run_bind]
  obtain ⟨hr, hs₁⟩ := hx
  revert hr hs₁
  rcases x.run.run s with ⟨r, s₁⟩
  rcases y.run.run s' with ⟨r', s₁'⟩
  rintro hr hs₁
  cases hr with
  | ok h => exact hf _ _ h s₁ s₁' hs₁
  | error h => exact ⟨.error h, hs₁⟩

/-- What is done with the state is a step from the same states. -/
theorem TwinAt.get {s s' : σ} {f : σ → ExceptT ε (StateM σ) α} {g : σ → ExceptT ε (StateM σ) β}
    (h : TwinAt R E Q (f s) (g s') s s') :
    TwinAt R E Q (MonadState.get >>= f) (MonadState.get >>= g) s s' := h

namespace Twin

theorem pure {a : α} {b : β} (h : Q a b) :
    Twin R E Q (Pure.pure a : ExceptT ε (StateM σ) α) (Pure.pure b : ExceptT ε (StateM σ) β) :=
  fun _ _ hs => ⟨.ok h, hs⟩

theorem throw {e e' : ε} (h : E e e') :
    Twin R E Q (MonadExcept.throw e : ExceptT ε (StateM σ) α)
      (MonadExcept.throw e' : ExceptT ε (StateM σ) β) :=
  fun _ _ hs => ⟨.error h, hs⟩

theorem get : Twin R E R (MonadState.get : ExceptT ε (StateM σ) σ) MonadState.get :=
  fun _ _ hs => ⟨.ok hs, hs⟩

theorem modify {f g : σ → σ} (h : ∀ s s', R s s' → R (f s) (g s')) :
    Twin R E Eq (modify f : ExceptT ε (StateM σ) PUnit) (modify g : ExceptT ε (StateM σ) PUnit) :=
  fun s s' hs => ⟨.ok rfl, h s s' hs⟩

theorem bind {Q' : γ → δ → Prop} {f : α → ExceptT ε (StateM σ) γ} {g : β → ExceptT ε (StateM σ) δ}
    (hx : Twin R E Q x y) (hf : ∀ a b, Q a b → Twin R E Q' (f a) (g b)) :
    Twin R E Q' (x >>= f) (y >>= g) :=
  fun s s' hs => (hx s s' hs).bind hf

/-- The same where the results are equal. -/
theorem next {x' : ExceptT ε (StateM σ) α} {Q' : γ → δ → Prop} {f : α → ExceptT ε (StateM σ) γ}
    {g : α → ExceptT ε (StateM σ) δ} (hx : Twin R E Eq x x') (hf : ∀ a, Twin R E Q' (f a) (g a)) :
    Twin R E Q' (x >>= f) (x' >>= g) :=
  hx.bind fun a _ h => h ▸ hf a

theorem mapM {S : γ → δ → Prop} {f : γ → ExceptT ε (StateM σ) α} {g : δ → ExceptT ε (StateM σ) β}
    {l : List γ} {l' : List δ} (h : List.Forall₂ S l l')
    (hf : ∀ c d, S c d → Twin R E Q (f c) (g d)) :
    Twin R E (List.Forall₂ Q) (l.mapM f) (l'.mapM g) := by
  induction h with
  | nil => exact pure .nil
  | cons hc _ ih =>
    rw [List.mapM_cons, List.mapM_cons]
    exact (hf _ _ hc).bind fun a b hab => ih.bind fun as bs hbs => pure (.cons hab hbs)

/-- The same list, with equal results. -/
theorem mapM_same {f g : γ → ExceptT ε (StateM σ) δ} (hf : ∀ c, Twin R E Eq (f c) (g c))
    (l : List γ) : Twin R E Eq (l.mapM f) (l.mapM g) := by
  induction l with
  | nil => exact pure rfl
  | cons c l ih =>
    rw [List.mapM_cons, List.mapM_cons]; exact (hf c).next fun _ => ih.next fun _ => pure rfl

variable {f g : γ → ExceptT ε (StateM σ) (List δ)}

theorem concatEach (hf : ∀ c, Twin R E Eq (f c) (g c)) (l : List γ) :
    Twin R E Eq (Runlist.concatEach f l) (Runlist.concatEach g l) := by
  induction l with
  | nil => exact pure rfl
  | cons c l ih => exact (hf c).next fun _ => ih.next fun _ => pure rfl

theorem foldlM {f g : δ → γ → ExceptT ε (StateM σ) δ} (hf : ∀ d c, Twin R E Eq (f d c) (g d c))
    (l : List γ) (d : δ) : Twin R E Eq (l.foldlM f d) (l.foldlM g d) := by
  induction l generalizing d with
  | nil => exact pure rfl
  | cons c l ih => rw [List.foldlM_cons, List.foldlM_cons]; exact (hf d c).next fun d => ih d

theorem forM {f g : γ → ExceptT ε (StateM σ) PUnit} (hf : ∀ c, Twin R E Eq (f c) (g c))
    (l : List γ) : Twin R E Eq (l.forM f) (l.forM g) := by
  induction l with
  | nil => exact pure rfl
  | cons c l ih => exact (hf c).next fun _ => ih

end Twin

end Rules

end Runlist

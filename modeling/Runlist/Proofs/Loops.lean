import Runlist.Proofs.Step

/-!
# Loops beside pure ones

A loop whose rounds do what a pure step says does what the pure loop says, failure included: the
first round that fails is the first one that the pure step fails at.

* `exists_forall₂`: counterparts of the elements of a list.
* `concatEach_ok`, `concatEach_error_split`: how a pure loop ends.
-/

namespace Runlist

variable {ε σ α β γ δ : Type}

/-- Elements that each have a counterpart have a list of counterparts. -/
theorem exists_forall₂ {R : α → β → Prop} {l : List α} (h : ∀ a ∈ l, ∃ b, R a b) :
    ∃ bs, List.Forall₂ R l bs := by
  induction l with
  | nil => exact ⟨[], .nil⟩
  | cons a l ih =>
    obtain ⟨b, hb⟩ := h a List.mem_cons_self
    obtain ⟨bs, hbs⟩ := ih fun a ha => h a (List.mem_cons_of_mem _ ha)
    exact ⟨b :: bs, .cons hb hbs⟩

/-- Counterparts of counterparts. -/
theorem forall₂_trans {R : α → β → Prop} {R' : β → γ → Prop} {R'' : α → γ → Prop} {l : List α}
    {bs : List β} {cs : List γ} (h : List.Forall₂ R l bs) (h' : List.Forall₂ R' bs cs)
    (himp : ∀ a b c, R a b → R' b c → R'' a c) : List.Forall₂ R'' l cs := by
  induction h generalizing cs with
  | nil => cases h'; exact .nil
  | cons hab _ ih =>
    cases h' with
    | cons hbc hrest => exact .cons (himp _ _ _ hab hbc) (ih hrest)

/-- What two relations say of the elements of two lists. -/
theorem forall₂_both {R R' : α → β → Prop} {l : List α} {bs : List β} (h : List.Forall₂ R l bs)
    (h' : List.Forall₂ R' l bs) : List.Forall₂ (fun a b => R a b ∧ R' a b) l bs := by
  induction h with
  | nil => exact .nil
  | cons hab _ ih =>
    cases h' with
    | cons hab' hrest => exact .cons ⟨hab, hab'⟩ (ih hrest)

/-- Counterparts that go through something in between. -/
theorem forall₂_through {R : α → β → Prop} {f : β → γ} {l : List α} {cs : List γ}
    (h : List.Forall₂ (fun a c => ∃ b, R a b ∧ f b = c) l cs) : ∃ bs, List.Forall₂ R l bs ∧
    cs = bs.map f := by
  induction h with
  | nil => exact ⟨[], .nil, rfl⟩
  | cons hac _ ih =>
    obtain ⟨b, hab, rfl⟩ := hac
    obtain ⟨bs, hbs, rfl⟩ := ih
    exact ⟨b :: bs, .cons hab hbs, rfl⟩

/-- What two lists give together, each beside a third one. -/
theorem zipWith_eq_map {R : γ → α → Prop} {R' : γ → β → Prop} {f : α → β → δ} {f' : γ → δ}
    {l : List γ} {as : List α} {bs : List β} (h : List.Forall₂ R l as) (h' : List.Forall₂ R' l bs)
    (hf : ∀ c ∈ l, ∀ a b, R c a → R' c b → f a b = f' c) : List.zipWith f as bs = l.map f' := by
  induction h generalizing bs with
  | nil => rfl
  | cons hca _ ih =>
    cases h' with
    | cons hcb hrest =>
      rw [List.zipWith_cons_cons, List.map_cons, hf _ List.mem_cons_self _ _ hca hcb,
        ih hrest fun c hc => hf c (List.mem_cons_of_mem _ hc)]

/-! ## Pure steps -/

theorem except_bind_error {x : Except ε α} {f : α → Except ε β} {e : ε} :
    (x >>= f) = .error e ↔ x = .error e ∨ ∃ a, x = .ok a ∧ f a = .error e := by
  cases x with
  | error e' => simp [bind, Except.bind]
  | ok a => simp [bind, Except.bind]

theorem mapError_ok {ε' : Type} {x : Except ε α} {f : ε → ε'} {a : α} :
    x.mapError f = .ok a ↔ x = .ok a := by
  cases x <;> simp [Except.mapError]

theorem mapError_error {ε' : Type} {x : Except ε α} {f : ε → ε'} {e : ε'} :
    x.mapError f = .error e ↔ ∃ e', x = .error e' ∧ f e' = e := by
  cases x <;> simp [Except.mapError]

/-- A loop over a step that says more says more. -/
theorem mapM_ok_map {f : α → Except ε β} {f' : α → Except ε γ} {g : β → γ} {l : List α}
    {bs : List β} (hf : ∀ a ∈ l, ∀ b, f a = .ok b → f' a = .ok (g b)) (h : l.mapM f = .ok bs) :
    l.mapM f' = .ok (bs.map g) := by
  rw [mapM_ok] at h ⊢
  rw [List.forall₂_map_right_iff]
  exact forall₂_mem h fun a b ha _ hab => hf a ha b hab

/-- A pure loop over a list fails as its first round that fails. -/
theorem mapM_error_iff {f : α → Except ε β} {l : List α} {e : ε} : l.mapM f = .error e ↔
    ∃ front a back, l = front ++ a :: back ∧ (∀ b ∈ front, ∃ c, f b = .ok c) ∧ f a = .error e := by
  induction l with
  | nil =>
    constructor
    · intro h; cases h
    · rintro ⟨front, a, back, h, -, -⟩; cases front <;> cases h
  | cons a l ih =>
    rw [List.mapM_cons, except_bind_error]
    constructor
    · rintro (h | ⟨b, hb, h⟩)
      · exact ⟨[], a, l, rfl, fun _ hb => (List.not_mem_nil hb).elim, h⟩
      · rcases except_bind_error.1 h with h | ⟨bs, -, h⟩
        · obtain ⟨front, c, back, rfl, hfront, hc⟩ := ih.1 h
          refine ⟨a :: front, c, back, rfl, fun d hd => ?_, hc⟩
          rcases List.mem_cons.1 hd with rfl | hd
          · exact ⟨b, hb⟩
          · exact hfront d hd
        · cases h
    · rintro ⟨front, c, back, h, hfront, hc⟩
      cases front with
      | nil => cases h; exact Or.inl hc
      | cons d front =>
        cases h
        obtain ⟨b, hb⟩ := hfront a List.mem_cons_self
        refine Or.inr ⟨b, hb, except_bind_error.2 (Or.inl (ih.2 ⟨front, c, back, rfl, ?_, hc⟩))⟩
        exact fun d hd => hfront d (List.mem_cons_of_mem _ hd)

/-- A loop over a step that fails alike fails alike. -/
theorem mapM_error_congr {f : α → Except ε β} {f' : α → Except ε γ} {l : List α} {e : ε}
    (hok : ∀ a b, f a = .ok b → ∃ c, f' a = .ok c)
    (herror : ∀ a e, f a = .error e → f' a = .error e) (h : l.mapM f = .error e) :
    l.mapM f' = .error e := by
  rw [mapM_error_iff] at h ⊢
  obtain ⟨front, a, back, hl, hfront, ha⟩ := h
  refine ⟨front, a, back, hl, fun b hb => ?_, herror a e ha⟩
  obtain ⟨c, hc⟩ := hfront b hb
  exact hok b c hc

theorem concatEach_of_map {m : Type → Type} [Monad m] (f : α → m (List β)) (g : γ → α)
    (l : List γ) : concatEach f (l.map g) = concatEach (fun c => f (g c)) l := by
  induction l with
  | nil => rfl
  | cons c l ih => rw [List.map_cons, concatEach, concatEach, ih]

/-- A pure loop over one element. -/
theorem concatEach_singleton (f : α → Except ε (List β)) (a : α) : concatEach f [a] = f a := by
  rw [concatEach]
  cases f a with
  | error e => rfl
  | ok bs => exact congrArg Except.ok (List.append_nil bs)

/-- A pure loop that succeeds gives what its rounds give. -/
theorem concatEach_ok {f : α → Except ε (List β)} {l : List α} {bs : List β} :
    concatEach f l = .ok bs ↔ ∃ parts, List.Forall₂ (fun a part => f a = .ok part) l parts ∧
      bs = parts.flatten := by
  induction l generalizing bs with
  | nil =>
    constructor
    · intro h; cases h; exact ⟨[], .nil, rfl⟩
    · rintro ⟨parts, h, rfl⟩; cases h; rfl
  | cons a l ih =>
    rw [concatEach, except_bind_ok]
    constructor
    · rintro ⟨first, hfirst, h⟩
      obtain ⟨others, hothers, h⟩ := except_bind_ok.1 h
      obtain ⟨parts, hparts, rfl⟩ := ih.1 hothers
      cases h
      exact ⟨first :: parts, .cons hfirst hparts, rfl⟩
    · rintro ⟨parts, h, rfl⟩
      cases h with
      | @cons _ first _ parts hfirst hparts =>
        refine ⟨first, hfirst, except_bind_ok.2 ⟨parts.flatten, ih.2 ⟨parts, hparts, rfl⟩, ?_⟩⟩
        rw [List.flatten_cons]; rfl

/-- **A pure loop fails as its first round that fails.** -/
theorem concatEach_error_split {f : α → Except ε (List β)} {l : List α} {e : ε}
    (h : concatEach f l = .error e) :
    ∃ front a back, l = front ++ a :: back ∧ (∀ b ∈ front, ∃ c, f b = .ok c) ∧ f a = .error e := by
  induction l with
  | nil => cases h
  | cons a l ih =>
    rw [concatEach] at h
    rcases except_bind_error.1 h with h | ⟨first, hfirst, h⟩
    · exact ⟨[], a, l, rfl, fun _ hb => (List.not_mem_nil hb).elim, h⟩
    · rcases except_bind_error.1 h with h | ⟨others, -, h⟩
      · obtain ⟨front, b, back, rfl, hfront, hb⟩ := ih h
        refine ⟨a :: front, b, back, rfl, fun c hc => ?_, hb⟩
        rcases List.mem_cons.1 hc with rfl | hc
        · exact ⟨first, hfirst⟩
        · exact hfront c hc
      · cases h

/-- A pure loop fails as one of its rounds. -/
theorem concatEach_error {f : α → Except ε (List β)} {l : List α} {e : ε}
    (h : concatEach f l = .error e) : ∃ a ∈ l, f a = .error e := by
  obtain ⟨front, a, back, rfl, -, ha⟩ := concatEach_error_split h
  exact ⟨a, List.mem_append_right _ List.mem_cons_self, ha⟩

/-- A loop that carries something along fails as one of its rounds. -/
theorem foldlM_error {f : β → α → Except ε β} {l : List α} {b : β} {e : ε}
    (h : l.foldlM f b = .error e) : ∃ b', ∃ a ∈ l, f b' a = .error e := by
  induction l generalizing b with
  | nil => cases h
  | cons a l ih =>
    rw [List.foldlM_cons] at h
    rcases except_bind_error.1 h with h | ⟨b', -, h⟩
    · exact ⟨b, a, List.mem_cons_self, h⟩
    · obtain ⟨b'', c, hc, hfail⟩ := ih h
      exact ⟨b'', c, List.mem_cons_of_mem _ hc, hfail⟩

/-! ## Loops that keep a state -/

/-- **A loop beside a pure one** does what the pure loop says if its rounds do: `P` relates what
both have given so far, and stays true while the state goes on by `R`. -/
theorem Ends.concatEach_beside {ε' : Type} {R : σ → σ → Prop} {P : List β → List γ → σ → Prop}
    {f : α → ExceptT ε (StateM σ) (List β)} {o : α → Except ε' (List γ)} {v : ε → ε'}
    (refl : ∀ s, R s s) (trans : ∀ {a b c}, R a b → R b c → R a c)
    (stable : ∀ {bs cs s s'}, R s s' → P bs cs s → P bs cs s')
    (append : ∀ {bs cs bs' cs' s}, P bs cs s → P bs' cs' s → P (bs ++ bs') (cs ++ cs') s)
    {l : List α} {s₀ : σ} (nil : ∀ s, R s₀ s → P [] [] s)
    (round : ∀ a ∈ l, ∀ s, R s₀ s →
      Ends (f a) s (fun bs s' => R s s' ∧ ∃ cs, o a = .ok cs ∧ P bs cs s')
      fun e s' => R s s' ∧ o a = .error (v e)) :
    Ends (Runlist.concatEach f l) s₀
      (fun bs s' => R s₀ s' ∧ ∃ cs, Runlist.concatEach o l = .ok cs ∧ P bs cs s')
      fun e s' => R s₀ s' ∧ Runlist.concatEach o l = .error (v e) := by
  induction l generalizing s₀ with
  | nil => exact ⟨refl _, [], rfl, nil _ (refl _)⟩
  | cons a l ih =>
    simp only [Runlist.concatEach, ends_bind, ends_pure]
    refine (round a List.mem_cons_self s₀ (refl _)).mono ?_ ?_
    · rintro bs s₁ ⟨h₁, cs, ha, hP⟩
      refine (ih (fun s h => nil s (trans h₁ h)) fun a ha s h =>
        round a (List.mem_cons_of_mem _ ha) s (trans h₁ h)).mono ?_ ?_
      · rintro bs' s₂ ⟨h₂, cs', hl, hP'⟩
        refine ⟨trans h₁ h₂, cs ++ cs', ?_, append (stable h₂ hP) hP'⟩
        rw [ha, hl]; rfl
      · rintro e s₂ ⟨h₂, hl⟩
        refine ⟨trans h₁ h₂, ?_⟩
        rw [ha, hl]; rfl
    · rintro e s₁ ⟨h₁, ha⟩
      refine ⟨h₁, ?_⟩
      rw [ha]; rfl

end Runlist

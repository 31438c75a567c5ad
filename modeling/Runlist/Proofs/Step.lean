import Mathlib.Data.List.Forall2
import Runlist.Expand.Expansion

/-!
# Steps that keep their state when they fail

`Load` and `Expand` are steps over a state that is kept when the step fails. What a step does is
said of both of its ends.

* `Ends`: from a state, the results and states, and the failures and states, with which a step ends.
* `ends_bind`, `ends_attempt`, `ends_entered`, `ends_load`: the rules, one for each way to build a
  step.
* `Ends.mapM`, `Ends.forM`, `Ends.concatEach`: loops keep what each round keeps.
-/

namespace Runlist

variable {ε σ α β : Type}

/-! ## Results -/

theorem except_bind_ok {x : Except ε α} {f : α → Except ε β} {b : β} :
    (x >>= f) = .ok b ↔ ∃ a, x = .ok a ∧ f a = .ok b := by
  cases x with
  | error e => simp [bind, Except.bind]
  | ok a => simp [bind, Except.bind]

theorem mapM_ok {f : α → Except ε β} {l : List α} {bs : List β} :
    l.mapM f = .ok bs ↔ List.Forall₂ (fun a b => f a = .ok b) l bs := by
  induction l generalizing bs with
  | nil =>
    rw [List.mapM_nil, List.forall₂_nil_left_iff]
    exact ⟨fun h => by cases h; rfl, fun h => by rw [h]; rfl⟩
  | cons a l ih =>
    rw [List.mapM_cons, except_bind_ok, List.forall₂_cons_left_iff]
    refine exists_congr fun b => ?_
    rw [except_bind_ok]
    constructor
    · rintro ⟨hb, bs', hbs, h⟩
      cases h
      exact ⟨bs', hb, ih.1 hbs, rfl⟩
    · rintro ⟨bs', hb, hbs, rfl⟩
      exact ⟨hb, bs', ih.2 hbs, rfl⟩

theorem mapM_error {f : α → Except ε β} {l : List α} :
    (∃ e, l.mapM f = .error e) ↔ ∃ a ∈ l, ∃ e, f a = .error e := by
  induction l with
  | nil =>
    constructor
    · rintro ⟨e, he⟩; cases he
    · rintro ⟨a, ha, -⟩; cases ha
  | cons a l ih =>
    rw [List.mapM_cons, List.exists_mem_cons_iff]
    cases ha : f a with
    | error e => exact ⟨fun _ => Or.inl ⟨e, rfl⟩, fun _ => ⟨e, rfl⟩⟩
    | ok b =>
      rw [← ih]
      constructor
      · rintro ⟨e, he⟩
        cases hl : l.mapM f with
        | error e => exact Or.inr ⟨e, rfl⟩
        | ok bs => rw [hl] at he; cases he
      · rintro (⟨e, he⟩ | ⟨e, he⟩)
        · cases he
        · rw [he]; exact ⟨e, rfl⟩

theorem exists_left {R : α → β → Prop} {l : List α} {bs : List β} (h : List.Forall₂ R l bs) {b : β}
    (hb : b ∈ bs) : ∃ a ∈ l, R a b := by
  induction h with
  | nil => cases hb
  | cons hab _ ih =>
    rcases List.mem_cons.1 hb with hb | hb
    · subst hb; exact ⟨_, List.mem_cons_self, hab⟩
    · obtain ⟨a, ha, h⟩ := ih hb
      exact ⟨a, List.mem_cons_of_mem _ ha, h⟩

theorem exists_right {R : α → β → Prop} {l : List α} {bs : List β} (h : List.Forall₂ R l bs) {a : α}
    (ha : a ∈ l) : ∃ b ∈ bs, R a b :=
  exists_left h.flip ha

theorem forall₂_mem {R R' : α → β → Prop} {l : List α} {bs : List β} (h : List.Forall₂ R l bs)
    (himp : ∀ a b, a ∈ l → b ∈ bs → R a b → R' a b) : List.Forall₂ R' l bs := by
  induction h with
  | nil => exact .nil
  | cons hab _ ih =>
    exact .cons (himp _ _ List.mem_cons_self List.mem_cons_self hab)
      (ih fun a b ha hb => himp a b (List.mem_cons_of_mem _ ha) (List.mem_cons_of_mem _ hb))

theorem forall₂_map_eq {γ : Type} {f : α → γ} {f' : β → γ} {l : List α} {bs : List β}
    (h : List.Forall₂ (fun a b => f a = f' b) l bs) : l.map f = bs.map f' := by
  induction h with
  | nil => rfl
  | cons hab _ ih => rw [List.map_cons, List.map_cons, hab, ih]

theorem ok_of_toOption {r : Except ε α} {a : α} (h : r.toOption = some a) : r = .ok a := by
  cases r with
  | error e => cases h
  | ok b => cases h; rfl

/-- A run that was seen to succeed. -/
theorem run_ok {r : Except ε α × σ} {a : α} (h : r.1.toOption = some a) : r = (.ok a, r.2) :=
  Prod.ext (ok_of_toOption h) rfl

/-! ## Rules -/

/-- From `s`, the step ends with a result and a state in `Q`, or with a failure and a state in
`E`. -/
def Ends (x : ExceptT ε (StateM σ) α) (s : σ) (Q : α → σ → Prop) (E : ε → σ → Prop) : Prop :=
  match x.run.run s with
  | (.ok a, s') => Q a s'
  | (.error e, s') => E e s'

section Rules

variable {x : ExceptT ε (StateM σ) α} {s s' : σ} {Q Q' : α → σ → Prop} {E E' : ε → σ → Prop}

theorem Ends.of_ok (h : Ends x s Q E) {a : α} (hr : x.run.run s = (.ok a, s')) : Q a s' := by
  unfold Ends at h; rw [hr] at h; exact h

theorem Ends.of_error (h : Ends x s Q E) {e : ε} (hr : x.run.run s = (.error e, s')) : E e s' := by
  unfold Ends at h; rw [hr] at h; exact h

/-- A step ends as its run does. -/
theorem ends_of_ok {a : α} (hr : x.run.run s = (.ok a, s')) (h : Q a s') : Ends x s Q E := by
  unfold Ends; rw [hr]; exact h

theorem ends_of_error {e : ε} (hr : x.run.run s = (.error e, s')) (h : E e s') : Ends x s Q E := by
  unfold Ends; rw [hr]; exact h

/-- A step ends in what both of its ends say. -/
theorem ends_iff : Ends x s Q E ↔
    (∀ a s', x.run.run s = (.ok a, s') → Q a s') ∧ ∀ e s', x.run.run s = (.error e, s') →
    E e s' := by
  refine ⟨fun h => ⟨fun a s' hr => h.of_ok hr, fun e s' hr => h.of_error hr⟩, fun h => ?_⟩
  unfold Ends
  split
  · rename_i hr; exact h.1 _ _ hr
  · rename_i hr; exact h.2 _ _ hr

/-- What holds of the state at either end. -/
theorem Ends.state (h : Ends x s Q E) {P : σ → Prop} (hQ : ∀ a s', Q a s' → P s')
    (hE : ∀ e s', E e s' → P s') : P (x.run.run s).2 := by
  unfold Ends at h
  split at h
  · rename_i hr; rw [hr]; exact hQ _ _ h
  · rename_i hr; rw [hr]; exact hE _ _ h

theorem Ends.of_state {P : σ → Prop} (h : P (x.run.run s).2) :
    Ends x s (fun _ s' => P s') fun _ s' => P s' := by
  unfold Ends
  split
  · rename_i hr; rw [hr] at h; exact h
  · rename_i hr; rw [hr] at h; exact h

theorem Ends.mono (h : Ends x s Q E) (hQ : ∀ a s', Q a s' → Q' a s')
    (hE : ∀ e s', E e s' → E' e s') : Ends x s Q' E' := by
  rw [ends_iff] at h ⊢
  exact ⟨fun a s' hr => hQ a s' (h.1 a s' hr), fun e s' hr => hE e s' (h.2 e s' hr)⟩

theorem Ends.and (h : Ends x s Q E) (h' : Ends x s Q' E') :
    Ends x s (fun a s' => Q a s' ∧ Q' a s') (fun e s' => E e s' ∧ E' e s') := by
  rw [ends_iff] at h h' ⊢
  exact ⟨fun a s' hr => ⟨h.1 a s' hr, h'.1 a s' hr⟩, fun e s' hr => ⟨h.2 e s' hr, h'.2 e s' hr⟩⟩

/-- The step ends somewhere. -/
theorem Ends.run (x : ExceptT ε (StateM σ) α) (s : σ) :
    Ends x s (fun a s' => x.run.run s = (.ok a, s')) (fun e s' => x.run.run s = (.error e, s')) :=
  ends_iff.2 ⟨fun _ _ hr => hr, fun _ _ hr => hr⟩

@[simp]
theorem ends_pure {a : α} : Ends (pure a : ExceptT ε (StateM σ) α) s Q E ↔ Q a s := Iff.rfl

@[simp]
theorem ends_throw {e : ε} : Ends (throw e : ExceptT ε (StateM σ) α) s Q E ↔ E e s := Iff.rfl

/-- One step after the other, run. -/
theorem run_bind (x : ExceptT ε (StateM σ) α) (f : α → ExceptT ε (StateM σ) β) (s : σ) :
    (x >>= f).run.run s = (match x.run.run s with
      | (.ok a, s') => (f a).run.run s'
      | (.error e, s') => (.error e, s')) := by
  show StateT.run (x.run >>= ExceptT.bindCont f) s = _
  rw [StateT.run_bind]
  show (match x.run.run s with | (r, s') => (ExceptT.bindCont f r).run s') = _
  rcases x.run.run s with ⟨_ | _, _⟩ <;> rfl

@[simp]
theorem ends_bind {f : α → ExceptT ε (StateM σ) β} {Q : β → σ → Prop} :
    Ends (x >>= f) s Q E ↔ Ends x s (fun a s' => Ends (f a) s' Q E) E := by
  unfold Ends
  rw [run_bind]
  rcases x.run.run s with ⟨_ | _, _⟩ <;> rfl

@[simp]
theorem ends_map {f : α → β} {Q : β → σ → Prop} :
    Ends (f <$> x) s Q E ↔ Ends x s (fun a s' => Q (f a) s') E := by
  rw [← bind_pure_comp, ends_bind]; rfl

/-- A step whose result is mapped ends well if the step does. -/
theorem map_run_ok {f : α → β} {b : β} (h : (f <$> x).run.run s = (.ok b, s')) :
    ∃ a, x.run.run s = (.ok a, s') ∧ f a = b := by
  have hends :
      Ends (f <$> x) s (fun b s' => ∃ a, x.run.run s = (.ok a, s') ∧ f a = b) fun _ _ => True :=
    ends_map.2 ((Ends.run x s).mono (fun a _ hr => ⟨a, hr, rfl⟩) fun _ _ _ => trivial)
  exact hends.of_ok h

@[simp]
theorem ends_get {Q : σ → σ → Prop} : Ends (get : ExceptT ε (StateM σ) σ) s Q E ↔ Q s s := Iff.rfl

@[simp]
theorem ends_set {Q : PUnit → σ → Prop} :
    Ends (set s' : ExceptT ε (StateM σ) PUnit) s Q E ↔ Q ⟨⟩ s' := Iff.rfl

@[simp]
theorem ends_modify {f : σ → σ} {Q : PUnit → σ → Prop} :
    Ends (modify f : ExceptT ε (StateM σ) PUnit) s Q E ↔ Q ⟨⟩ (f s) := Iff.rfl

end Rules

/-! ## Steps of loading and expansion -/

section Load

variable {s : Store} {Q : α → Store → Prop} {E : LoadError → Store → Prop}

@[simp]
theorem ends_ofExcept {r : Except LoadError α} : Ends (Load.ofExcept r) s Q E ↔
    (∀ a, r = .ok a → Q a s) ∧ ∀ e, r = .error e → E e s := by
  cases r with
  | ok a => simp [Load.ofExcept]
  | error e => simp [Load.ofExcept]

@[simp]
theorem ends_graph {Q : Graph → Store → Prop} : Ends Load.graph s Q E ↔ Q s.graph s := Iff.rfl

@[simp]
theorem ends_change {f : Graph → α × Graph} :
    Ends (Load.change f) s Q E ↔ Q (f s.graph).1 { s with graph := (f s.graph).2 } := Iff.rfl

@[simp]
theorem ends_update {f : Graph → Graph} {Q : Unit → Store → Prop} :
    Ends (Load.update f) s Q E ↔ Q () { s with graph := f s.graph } := Iff.rfl

@[simp]
theorem ends_note {n : Notice} {Q : Unit → Store → Prop} :
    Ends (Load.note n) s Q E ↔ Q () { s with notices := s.notices ++ [n] } := Iff.rfl

end Load

section Expand

variable {e : Expansion} {Q : α → Expansion → Prop} {E : ExpandError → Expansion → Prop}

@[simp]
theorem ends_expand_graph {Q : Graph → Expansion → Prop} :
    Ends Expand.graph e Q E ↔ Q e.store.graph e := Iff.rfl

/-- A step of loading changes the store only. -/
@[simp]
theorem ends_load {x : Load α} :
    Ends (Expand.load x) e Q E ↔ Ends x e.store (fun a s => Q a { e with store := s })
      fun err s => E (.load err) { e with store := s } := by
  unfold Expand.load
  simp only [ends_bind, ends_get]
  conv_rhs => unfold Ends
  rcases x.run.run e.store with ⟨_ | _, _⟩ <;> exact Iff.rfl

@[simp]
theorem ends_attempt {x : Expand α} {Q : Except ExpandError α → Expansion → Prop} :
    Ends (Expand.attempt x) e Q E ↔
      Ends x e (fun a e' => Q (.ok a) e') fun err e' => Q (.error err) e' := by
  have hrun : (Expand.attempt x).run.run e = (.ok (x.run.run e).1, (x.run.run e).2) := rfl
  unfold Ends
  rw [hrun]
  rcases x.run.run e with ⟨_ | _, _⟩ <;> exact Iff.rfl

/-- The failure of a directive leaves everything as it is. -/
theorem ends_failed {origin : OriginId} {target : String} {err : ExpandError}
    (h : ∀ err, E err e) : Ends (Expand.failed origin target err : Expand α) e Q E := by
  cases err <;> exact h _

/-- The failure of a directive. -/
theorem ends_failed_iff {origin : OriginId} {target : String} {err : ExpandError} :
    Ends (Expand.failed origin target err : Expand α) e Q E ↔ E (match err with
      | .includeFailed chain target source => .includeFailed chain target source
      | .cyclicInclude chain => .cyclicInclude chain
      | err => .includeFailed (e.store.graph.provenance origin) target err) e := by
  cases err <;> exact Iff.rfl

/-- **A step inside a target**: one that is open already closes a cycle; otherwise it is open during
the step, and the step's failure is a result. -/
theorem ends_entered {site : Site} {target : Target} {x : Expand α}
    {Q : Except ExpandError α → Expansion → Prop} (hE : target.key site.disk ∈ e.opened →
      E (.cyclicInclude (cycleOf e.opened (target.key site.disk))) e)
    (h : target.key site.disk ∉ e.opened →
      Ends x { e with opened := e.opened ++ [target.key site.disk] }
        (fun a e' => Q (.ok a) { e' with opened := e'.opened.dropLast })
        fun err e' => Q (.error err) { e' with opened := e'.opened.dropLast }) :
    Ends (Expand.inside site target x) e Q E := by
  unfold Expand.inside Expand.enter
  simp only [ends_bind, ends_get]
  split
  · rename_i hopen
    exact hE (List.contains_iff_mem.1 hopen)
  · rename_i hnot
    simp only [ends_set, ends_attempt, Expand.leave, ends_modify, ends_pure]
    exact h fun hopen => hnot (List.contains_iff_mem.2 hopen)

/-- The same where a failure says nothing. -/
theorem ends_inside {site : Site} {target : Target} {x : Expand α}
    {Q : Except ExpandError α → Expansion → Prop} (hE : ∀ err, E err e)
    (h : Ends x { e with opened := e.opened ++ [target.key site.disk] }
      (fun a e' => Q (.ok a) { e' with opened := e'.opened.dropLast })
      fun err e' => Q (.error err) { e' with opened := e'.opened.dropLast }) :
    Ends (Expand.inside site target x) e Q E :=
  ends_entered (fun _ => hE _) fun _ => h

end Expand

/-! ## Loops -/

section Loops

variable {R : σ → σ → Prop} {P : α → β → σ → Prop}

/-- A loop over a list ends where its rounds lead: `R` relates the states before and after a round,
what a round says of its result stays true under `R`, and a failure is that of the first round that
fails. -/
theorem Ends.mapM {F : α → ε → Prop} {f : α → ExceptT ε (StateM σ) β} (refl : ∀ s, R s s)
    (trans : ∀ {a b c}, R a b → R b c → R a c) (stable : ∀ {a b s s'}, R s s' → P a b s → P a b s')
    {l : List α} {s₀ : σ}
    (round : ∀ a ∈ l, ∀ s, R s₀ s →
      Ends (f a) s (fun b s' => R s s' ∧ P a b s') fun e s' => R s s' ∧ F a e) :
    Ends (l.mapM f) s₀ (fun bs s' => R s₀ s' ∧ List.Forall₂ (P · · s') l bs)
      fun e s' => R s₀ s' ∧ ∃ front a back, l = front ++ a :: back ∧
        (∃ bs, List.Forall₂ (P · · s') front bs) ∧ F a e := by
  induction l generalizing s₀ with
  | nil => rw [List.mapM_nil, ends_pure]; exact ⟨refl _, .nil⟩
  | cons a l ih =>
    rw [List.mapM_cons, ends_bind]
    refine (round a List.mem_cons_self s₀ (refl _)).mono (fun b s₁ h₁ => ?_) fun e s₁ h₁ => ?_
    · rw [ends_bind]
      refine (ih fun a ha s hs => round a (List.mem_cons_of_mem _ ha) s (trans h₁.1 hs)).mono ?_ ?_
      · intro bs s₂ h₂
        exact ⟨trans h₁.1 h₂.1, .cons (stable h₂.1 h₁.2) h₂.2⟩
      · rintro e s₂ ⟨h₂, front, c, back, hl, ⟨bs, hbs⟩, hf⟩
        refine ⟨trans h₁.1 h₂, a :: front, c, back, ?_, ⟨b :: bs, .cons (stable h₂ h₁.2) hbs⟩, hf⟩
        rw [hl]; rfl
    · exact ⟨h₁.1, [], a, l, rfl, ⟨[], .nil⟩, h₁.2⟩

/-- A loop that fills something in, beside the fold that says what. What holds between two rounds
may depend on the elements in front. -/
theorem Ends.forM {γ : Type} {step : γ → α → Except ε γ} {P : List α → γ → σ → Prop}
    {E : List α → α → ε → σ → Prop} {f : α → ExceptT ε (StateM σ) PUnit} {l : List α}
    (round : ∀ front a back, l = front ++ a :: back → ∀ c s, P front c s →
      Ends (f a) s (fun _ s' => ∃ c', step c a = .ok c' ∧ P (front ++ [a]) c' s')
        fun e s' => step c a = .error e ∧ E front a e s') {c : γ} {s : σ} (h : P [] c s) :
    Ends (l.forM f) s (fun _ s' => ∃ c', l.foldlM step c = .ok c' ∧ P l c' s')
      fun e s' => l.foldlM step c = .error e ∧ ∃ front a back, l = front ++ a :: back ∧
      E front a e s' := by
  have hrest : ∀ rest front c s, l = front ++ rest → P front c s →
      Ends (rest.forM f) s (fun _ s' => ∃ c', rest.foldlM step c = .ok c' ∧ P l c' s')
        fun e s' => rest.foldlM step c = .error e ∧
          ∃ front a back, l = front ++ a :: back ∧ E front a e s' := by
    intro rest
    induction rest with
    | nil =>
      intro front c s hl h
      rw [List.append_nil] at hl
      subst hl
      exact ⟨c, rfl, h⟩
    | cons a rest ih =>
      intro front c s hl h
      show Ends (f a >>= fun _ => rest.forM f) s _ _
      rw [ends_bind]
      refine (round front a rest hl c s h).mono ?_ ?_
      · rintro _ s₁ ⟨c₁, hc₁, h₁⟩
        rw [List.foldlM_cons, hc₁]
        exact ih (front ++ [a]) c₁ s₁ (by rw [hl, List.append_assoc]; rfl) h₁
      · rintro e s₁ ⟨hc₁, h₁⟩
        rw [List.foldlM_cons, hc₁]
        exact ⟨rfl, front, a, rest, hl, h₁⟩
  exact hrest l [] c s rfl h

theorem concatEach_eq (f : α → ExceptT ε (StateM σ) (List β)) (l : List α) :
    Runlist.concatEach f l = List.flatten <$> l.mapM f := by
  induction l with
  | nil => simp [Runlist.concatEach]
  | cons a l ih => simp [Runlist.concatEach, ih, ← bind_pure_comp]

/-- The same for a loop whose results are lists. -/
theorem Ends.concatEach {P : α → List β → σ → Prop} {f : α → ExceptT ε (StateM σ) (List β)}
    (refl : ∀ s, R s s) (trans : ∀ {a b c}, R a b → R b c → R a c)
    (stable : ∀ {a b s s'}, R s s' → P a b s → P a b s') {l : List α} {s₀ : σ}
    (round : ∀ a ∈ l, ∀ s, R s₀ s →
      Ends (f a) s (fun b s' => R s s' ∧ P a b s') fun _ s' => R s s') :
    Ends (Runlist.concatEach f l) s₀
      (fun bs s' => R s₀ s' ∧ ∃ parts, bs = parts.flatten ∧ List.Forall₂ (P · · s') l parts)
      fun _ s' => R s₀ s' := by
  rw [concatEach_eq, ends_map]
  refine (Ends.mapM (P := P) (F := fun _ _ => True) refl trans stable fun a ha s hs => ?_).mono
    ?_ ?_
  · exact (round a ha s hs).mono (fun _ _ h => h) fun _ _ h => ⟨h, trivial⟩
  · exact fun parts _ h => ⟨h.1, parts, rfl, h.2⟩
  · exact fun _ _ h => h.1

end Loops

end Runlist

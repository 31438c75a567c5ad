import Runlist.Proofs.Graph.Walks

/-!
# Watched steps

A step ends in a state, and that is all that is left of it. A watched step does the same and in
addition notes the moments through which it goes, so that something can be said of each of them.

* `Tape`: a state, and the moments that came before it.
* `Mirrors`: **a watched step does what a step does**, with one rule for each way to build a step.
* `Look`, `Watch`: moments and watched steps of loading.
* `Frame`, `Moment`, `WatchExpand`: moments and watched steps of expansion, inside targets.
-/

namespace Runlist

variable {ε σ μ α β : Type}

/-- A state, and the moments through which a run has come to it, the first one in front. -/
structure Tape (σ μ : Type) where
  state : σ
  moments : List μ

/-! ## Watched steps and steps -/

section Run

variable {x : ExceptT ε (StateM σ) α} {s s' : σ}

theorem run_eq_ok {a : α} (h : Ends x s (fun b s₁ => b = a ∧ s₁ = s') fun _ _ => False) :
    x.run.run s = (.ok a, s') := by
  unfold Ends at h
  split at h
  · rename_i hr; rw [hr, h.1, h.2]
  · exact h.elim

theorem run_eq_error {e : ε} (h : Ends x s (fun _ _ => False) fun e' s₁ => e' = e ∧ s₁ = s') :
    x.run.run s = (.error e, s') := by
  unfold Ends at h
  split at h
  · exact h.elim
  · rename_i hr; rw [hr, h.1, h.2]

end Run

/-- **The watched step does what the step does**: it has the same result and ends in the same state,
whatever was noted before. -/
def Mirrors (x' : ExceptT ε (StateM (Tape σ μ)) α) (x : ExceptT ε (StateM σ) α) : Prop :=
  ∀ t, (x'.run.run t).1 = (x.run.run t.state).1 ∧ (x'.run.run t).2.state = (x.run.run t.state).2

section Mirrors

variable {x' : ExceptT ε (StateM (Tape σ μ)) α} {x : ExceptT ε (StateM σ) α}

/-- What holds at the ends of a step holds at those of the watched step. -/
theorem Mirrors.ends (h : Mirrors x' x) {t : Tape σ μ} {Q : α → σ → Prop} {E : ε → σ → Prop}
    (hx : Ends x t.state Q E) : Ends x' t (fun a t' => Q a t'.state) fun e t' => E e t'.state := by
  obtain ⟨hresult, hstate⟩ := h t
  rw [ends_iff]
  refine ⟨fun a t' hr => ?_, fun e t' hr => ?_⟩
  · rw [hr] at hresult hstate
    exact hx.of_ok (Prod.ext hresult.symm hstate.symm)
  · rw [hr] at hresult hstate
    exact hx.of_error (Prod.ext hresult.symm hstate.symm)

theorem mirrors_of_ends (h : ∀ t, Ends x' t (fun a t' => x.run.run t.state = (.ok a, t'.state))
    fun e t' => x.run.run t.state = (.error e, t'.state)) : Mirrors x' x := by
  intro t
  have hends := h t
  unfold Ends at hends
  split at hends
  · rename_i hr; rw [hr, hends]; exact ⟨rfl, rfl⟩
  · rename_i hr; rw [hr, hends]; exact ⟨rfl, rfl⟩

theorem mirrors_pure (a : α) :
    Mirrors (pure a : ExceptT ε (StateM (Tape σ μ)) α) (pure a : ExceptT ε (StateM σ) α) :=
  fun _ => ⟨rfl, rfl⟩

theorem mirrors_throw (e : ε) :
    Mirrors (throw e : ExceptT ε (StateM (Tape σ μ)) α) (throw e : ExceptT ε (StateM σ) α) :=
  fun _ => ⟨rfl, rfl⟩

theorem mirrors_bind {f' : α → ExceptT ε (StateM (Tape σ μ)) β} {f : α → ExceptT ε (StateM σ) β}
    (hx : Mirrors x' x) (hf : ∀ a, Mirrors (f' a) (f a)) : Mirrors (x' >>= f') (x >>= f) := by
  intro t
  obtain ⟨hresult, hstate⟩ := hx t
  rw [run_bind, run_bind]
  rcases hx' : x'.run.run t with ⟨r', t'⟩
  rcases hx : x.run.run t.state with ⟨r, s⟩
  rw [hx', hx] at hresult hstate
  simp only at hresult hstate
  subst hresult hstate
  cases r' with
  | ok a => exact hf a t'
  | error e => exact ⟨rfl, rfl⟩

theorem mirrors_mapM {f' : α → ExceptT ε (StateM (Tape σ μ)) β} {f : α → ExceptT ε (StateM σ) β}
    (h : ∀ a, Mirrors (f' a) (f a)) (l : List α) : Mirrors (l.mapM f') (l.mapM f) := by
  induction l with
  | nil => rw [List.mapM_nil, List.mapM_nil]; exact mirrors_pure _
  | cons a l ih =>
    rw [List.mapM_cons, List.mapM_cons]
    exact mirrors_bind (h a) fun b => mirrors_bind ih fun bs => mirrors_pure _

theorem mirrors_forM {f' : α → ExceptT ε (StateM (Tape σ μ)) PUnit}
    {f : α → ExceptT ε (StateM σ) PUnit} (h : ∀ a, Mirrors (f' a) (f a)) (l : List α) :
    Mirrors (l.forM f') (l.forM f) := by
  induction l with
  | nil => exact mirrors_pure _
  | cons a l ih => exact mirrors_bind (h a) fun _ => ih

theorem mirrors_foldlM {f' : β → α → ExceptT ε (StateM (Tape σ μ)) β}
    {f : β → α → ExceptT ε (StateM σ) β} (h : ∀ b a, Mirrors (f' b a) (f b a)) (b : β)
    (l : List α) : Mirrors (l.foldlM f' b) (l.foldlM f b) := by
  induction l generalizing b with
  | nil => rw [List.foldlM_nil, List.foldlM_nil]; exact mirrors_pure _
  | cons a l ih =>
    rw [List.foldlM_cons, List.foldlM_cons]
    exact mirrors_bind (h b a) ih

theorem mirrors_concatEach {f' : α → ExceptT ε (StateM (Tape σ μ)) (List β)}
    {f : α → ExceptT ε (StateM σ) (List β)} (h : ∀ a, Mirrors (f' a) (f a)) (l : List α) :
    Mirrors (concatEach f' l) (concatEach f l) := by
  induction l with
  | nil => exact mirrors_pure _
  | cons a l ih => exact mirrors_bind (h a) fun b => mirrors_bind ih fun bs => mirrors_pure _

end Mirrors

/-- A step that notes nothing. -/
def aside (x : ExceptT ε (StateM σ) α) : ExceptT ε (StateM (Tape σ μ)) α := do
  let t ← get
  let (result, state) := x.run.run t.state
  set { t with state }
  match result with
  | .ok a => return a
  | .error e => throw e

@[simp]
theorem ends_aside {x : ExceptT ε (StateM σ) α} {t : Tape σ μ} {Q : α → Tape σ μ → Prop}
    {E : ε → Tape σ μ → Prop} : Ends (aside x) t Q E ↔
      Ends x t.state (fun a s => Q a { t with state := s }) fun e s =>
        E e { t with state := s } := by
  unfold aside
  simp only [ends_bind, ends_get]
  conv_rhs => unfold Ends
  rcases x.run.run t.state with ⟨_ | _, _⟩ <;> exact Iff.rfl

theorem mirrors_aside (x : ExceptT ε (StateM σ) α) :
    Mirrors (aside x : ExceptT ε (StateM (Tape σ μ)) α) x := by
  exact mirrors_of_ends fun t => ends_aside.2 (Ends.run x t.state)

/-! ## Loading -/

/-- A moment of loading: the graph, and the entities that are looked up in it. -/
structure Look where
  graph : Graph
  handles : List Handle

/-- A watched step of loading. -/
abbrev Watch := ExceptT LoadError (StateM (Tape Store Look))

namespace Watch

/-- The graph so far, in which some entities are looked up. -/
def look (handles : Graph → List Handle) : Watch Graph := do
  let t ← get
  let g := t.state.graph
  set (⟨t.state, t.moments ++ [⟨g, handles g⟩]⟩ : Tape Store Look)
  return g

/-- A write that gives a result. -/
def change (f : Graph → α × Graph) : Watch α := do
  let t ← get
  let (a, g) := f t.state.graph
  set (⟨{ t.state with graph := g }, t.moments ++ [⟨g, []⟩]⟩ : Tape Store Look)
  return a

/-- A write to an entity, which is looked up before. -/
def update (handle : Handle) (f : Graph → Graph) : Watch Unit := do
  let _ ← look fun _ => [handle]
  change fun g => ((), f g)

end Watch

theorem mirrors_look (handles : Graph → List Handle) : Mirrors (Watch.look handles) Load.graph :=
  fun _ => ⟨rfl, rfl⟩

theorem mirrors_change (f : Graph → α × Graph) : Mirrors (Watch.change f) (Load.change f) :=
  fun _ => ⟨rfl, rfl⟩

theorem mirrors_update (handle : Handle) (f : Graph → Graph) :
    Mirrors (Watch.update handle f) (Load.update f) :=
  fun _ => ⟨rfl, rfl⟩

section Ends

variable {t : Tape Store Look} {Q : α → Tape Store Look → Prop}
  {E : LoadError → Tape Store Look → Prop}

@[simp]
theorem ends_look {handles : Graph → List Handle} {Q : Graph → Tape Store Look → Prop} :
    Ends (Watch.look handles) t Q E ↔ Q t.state.graph
      ⟨t.state, t.moments ++ [⟨t.state.graph, handles t.state.graph⟩]⟩ := Iff.rfl

@[simp]
theorem ends_watch_change {f : Graph → α × Graph} : Ends (Watch.change f) t Q E ↔
    Q (f t.state.graph).1
      ⟨{ t.state with graph := (f t.state.graph).2 }, t.moments ++ [⟨(f t.state.graph).2, []⟩]⟩ :=
    Iff.rfl

@[simp]
theorem ends_watch_update {handle : Handle} {f : Graph → Graph}
    {Q : Unit → Tape Store Look → Prop} :
    Ends (Watch.update handle f) t Q E ↔ Q () ⟨{ t.state with graph := f t.state.graph },
      t.moments ++ [⟨t.state.graph, [handle]⟩] ++ [⟨f t.state.graph, []⟩]⟩ := Iff.rfl

end Ends

/-! ## Expansion -/

/-- What is being expanded: the target of a directive, or a playbook. -/
inductive Frame where
  | directive (task : TaskId) (target : Target)
  | playbook (path : FilePath)
deriving DecidableEq, Inhabited, Repr

/-- The text by which what is being expanded is told apart. -/
def Frame.key (site : Site) : Frame → String
  | .directive _ target => target.key site.disk
  | .playbook path => (Target.file path).key site.disk

/-- A moment of expansion: what is looked up, the keys that are open, and what is being expanded,
outermost first. -/
structure Moment where
  look : Look
  opened : List String
  inside : List Frame

/-- A watched step of expansion. -/
abbrev WatchExpand := ExceptT ExpandError (StateM (Tape Expansion Moment))

namespace WatchExpand

/-- A step of loading inside some targets. -/
def load (inside : List Frame) (x : Watch α) : WatchExpand α := do
  let t ← get
  let (result, t') := x.run.run ⟨t.state.store, []⟩
  set (⟨{ t.state with store := t'.state },
    t.moments ++ t'.moments.map fun look => ⟨look, t.state.opened, inside⟩⟩ : Tape Expansion Moment)
  match result with
  | .ok a => return a
  | .error e => throw (.load e)

/-- The graph so far, in which some entities are looked up. -/
def look (inside : List Frame) (handles : Graph → List Handle) : WatchExpand Graph :=
  load inside (Watch.look handles)

/-- A step whose failure is answered. -/
def attempt (x : WatchExpand α) : WatchExpand (Except ExpandError α) := ExceptT.lift x.run

/-- A step inside one more target, which is noted when it has been opened and when it has been
closed. -/
def entered (site : Site) (inside : List Frame) (frame : Frame)
    (step : List Frame → WatchExpand α) : WatchExpand (Except ExpandError α) := do
  aside (Expand.enter (frame.key site))
  let _ ← look (inside ++ [frame]) fun _ => []
  let result ← attempt (step (inside ++ [frame]))
  aside Expand.leave
  let _ ← look inside fun _ => []
  return result

/-- The failure of a directive, which shows the provenance of an origin. -/
def failed (inside : List Frame) (origin : OriginId) (target : String) (e : ExpandError) :
    WatchExpand α := do
  match e with
  | .includeFailed chain target source => throw (.includeFailed chain target source)
  | .cyclicInclude chain => throw (.cyclicInclude chain)
  | e =>
    let g ← look inside fun g => (visited g.outer g.origins.size origin).map .origin
    throw (.includeFailed (g.provenance origin) target e)

end WatchExpand

/-- A watched step of loading is one of expansion. -/
@[simp]
theorem ends_watch_load {inside : List Frame} {x : Watch α} {t : Tape Expansion Moment}
    {Q : α → Tape Expansion Moment → Prop} {E : ExpandError → Tape Expansion Moment → Prop} :
    Ends (WatchExpand.load inside x) t Q E ↔
      Ends x ⟨t.state.store, []⟩
        (fun a t' => Q a ⟨{ t.state with store := t'.state },
          t.moments ++ t'.moments.map fun look => ⟨look, t.state.opened, inside⟩⟩)
        fun err t' => E (.load err) ⟨{ t.state with store := t'.state },
          t.moments ++ t'.moments.map fun look => ⟨look, t.state.opened, inside⟩⟩ := by
  unfold WatchExpand.load
  simp only [ends_bind, ends_get]
  conv_rhs => unfold Ends
  rcases x.run.run ⟨t.state.store, []⟩ with ⟨_ | _, _⟩ <;> exact Iff.rfl

@[simp]
theorem ends_watch_look {inside : List Frame} {handles : Graph → List Handle}
    {t : Tape Expansion Moment} {Q : Graph → Tape Expansion Moment → Prop}
    {E : ExpandError → Tape Expansion Moment → Prop} :
    Ends (WatchExpand.look inside handles) t Q E ↔ Q t.state.store.graph ⟨t.state,
      t.moments ++ [⟨⟨t.state.store.graph, handles t.state.store.graph⟩, t.state.opened,
        inside⟩]⟩ := by
  unfold WatchExpand.look
  rw [ends_watch_load, ends_look]; rfl

@[simp]
theorem ends_watch_attempt {x : WatchExpand α} {t : Tape Expansion Moment}
    {Q : Except ExpandError α → Tape Expansion Moment → Prop}
    {E : ExpandError → Tape Expansion Moment → Prop} : Ends (WatchExpand.attempt x) t Q E ↔
      Ends x t (fun a t' => Q (.ok a) t') fun err t' => Q (.error err) t' := by
  have hrun : (WatchExpand.attempt x).run.run t = (.ok (x.run.run t).1, (x.run.run t).2) := rfl
  unfold Ends
  rw [hrun]
  rcases x.run.run t with ⟨_ | _, _⟩ <;> exact Iff.rfl

section Mirrors

variable {x' : WatchExpand α} {x : Expand α} {inside : List Frame}

theorem mirrors_load {x' : Watch α} {x : Load α} (h : Mirrors x' x) :
    Mirrors (WatchExpand.load inside x') (Expand.load x) := by
  refine mirrors_of_ends fun t => ends_watch_load.2 ?_
  refine (h.ends (t := ⟨t.state.store, []⟩) (Ends.run x t.state.store)).mono ?_ ?_
  · intro a t' hr
    refine run_eq_ok (ends_load.2 ?_)
    unfold Ends
    rw [hr]; exact ⟨rfl, rfl⟩
  · intro e t' hr
    refine run_eq_error (ends_load.2 ?_)
    unfold Ends
    rw [hr]; exact ⟨rfl, rfl⟩

theorem mirrors_expand_look (handles : Graph → List Handle) :
    Mirrors (WatchExpand.look inside handles) Expand.graph := fun _ => ⟨rfl, rfl⟩

/-- To look up more changes nothing. -/
theorem mirrors_expand_looking {handles : Graph → List Handle} {f' : Graph → WatchExpand α}
    (h : ∀ g, Mirrors (f' g) x) : Mirrors (WatchExpand.look inside handles >>= f') x := by
  intro t
  rw [run_bind]
  exact h t.state.store.graph ⟨t.state, _⟩

theorem mirrors_attempt (h : Mirrors x' x) :
    Mirrors (WatchExpand.attempt x') (Expand.attempt x) := by
  intro t
  obtain ⟨hresult, hstate⟩ := h t
  exact ⟨congrArg Except.ok hresult, hstate⟩

theorem mirrors_entered {site : Site} {frame : Frame} {step : List Frame → WatchExpand α}
    {target : Target} (hkey : frame.key site = target.key site.disk)
    (h : Mirrors (step (inside ++ [frame])) x) :
    Mirrors (WatchExpand.entered site inside frame step) (Expand.inside site target x) := by
  unfold WatchExpand.entered Expand.inside
  rw [hkey]
  refine mirrors_bind (mirrors_aside _) fun _ => mirrors_expand_looking fun _ => ?_
  refine mirrors_bind (mirrors_attempt h) fun result => mirrors_bind (mirrors_aside _) fun _ => ?_
  exact mirrors_expand_looking fun _ => mirrors_pure _

theorem mirrors_failed (origin : OriginId) (target : String) (e : ExpandError) :
    Mirrors (WatchExpand.failed inside origin target e : WatchExpand α)
      (Expand.failed origin target e) := by
  cases e with
  | includeFailed | cyclicInclude => exact mirrors_throw _
  | load | invalidParams | tooDeep =>
    exact mirrors_bind (mirrors_expand_look _) fun g => mirrors_throw _

end Mirrors

end Runlist

import Runlist.Proofs.Watch.Tape

/-!
# The course of a watched step

A watched step is legal if every moment of it comes from the one before by one write within the
limits of the operation, or by none, and if whatever is looked up is there. So what writes keep
holds at every moment.

* `Course`: **from graph to graph, moment by moment.**
* `Course.moment`, `Course.pairwise`: what holds of each moment, and of any two.
* `Began`: where an operation stands once it has begun.
* `Legal`: from a tape, a step goes on by a course, however it ends. `legal_bind` and the like: one
  rule for each way to build a step.
-/

namespace Runlist

open Runlist.Graph (Spans Write Writes Within)

variable {g g' g₁ : Graph} {L M : Limits} {seen more : List Look}

/-- **From graph to graph, moment by moment**: one write, or a look at entities that are there. -/
inductive Course (L : Limits) : Graph → List Look → Graph → Prop
  | done (g : Graph) : Course L g [] g
  | write {g g₁ g' : Graph} {seen : List Look} : Write L g g₁ → Course L g₁ seen g' →
      Course L g (⟨g₁, []⟩ :: seen) g'
  | look {g g' : Graph} {handles : List Handle} {seen : List Look} : (∀ h ∈ handles, g.Has h) →
      Course L g seen g' → Course L g (⟨g, handles⟩ :: seen) g'

namespace Course

theorem trans (h : Course L g seen g₁) (h' : Course L g₁ more g') :
    Course L g (seen ++ more) g' := by
  induction h with
  | done => exact h'
  | write hw _ ih => exact .write hw (ih h')
  | look hl _ ih => exact .look hl (ih h')

theorem within (h : Course M g seen g') (hLM : Within L M) : Course L g seen g' := by
  induction h with
  | done g => exact .done g
  | write hw _ ih => exact .write (hw.within hLM) ih
  | look hl _ ih => exact .look hl ih

theorem writes (h : Course L g seen g') : Writes L g g' := by
  induction h with
  | done => exact .refl
  | write hw _ ih => exact .head hw ih
  | look _ _ ih => exact ih

/-- **A moment** is reached by writes, and what is looked up at it is there. -/
theorem moment (h : Course L g seen g') {m : Look} (hm : m ∈ seen) :
    Writes L g m.graph ∧ Writes L m.graph g' ∧ ∀ h ∈ m.handles, m.graph.Has h := by
  induction h with
  | done => cases hm
  | write hw hrest ih =>
    rcases List.mem_cons.1 hm with rfl | hm
    · exact ⟨.single hw, hrest.writes, fun _ h => by cases h⟩
    · exact ⟨.head hw (ih hm).1, (ih hm).2⟩
  | look hl hrest ih =>
    rcases List.mem_cons.1 hm with rfl | hm
    · exact ⟨.refl, hrest.writes, hl⟩
    · exact ih hm

/-- **Of two moments**, the later one is reached from the earlier one by writes. -/
theorem pairwise (h : Course L g seen g') :
    seen.Pairwise fun m m' => Writes L m.graph m'.graph := by
  induction h with
  | done => exact .nil
  | write _ hrest ih => exact .cons (fun m hm => (hrest.moment hm).1) ih
  | look _ hrest ih => exact .cons (fun m hm => (hrest.moment hm).1) ih

end Course

/-- **An operation that has begun**: the graph is well formed, and has all that was there at the
start. -/
structure Began (L : Limits) (g : Graph) : Prop where
  spans : L.start.Spans g
  parents : L.parents ≤ L.start.tasks.size
  wellFormed : g.WellFormed

namespace Began

theorem writes (h : Began L g) (hw : Writes L g g') : Began L g' :=
  ⟨h.spans.trans hw.spans, h.parents, hw.wellFormed h.wellFormed⟩

/-- A part of the operation begins where it is, and remembers less. -/
theorem part (h : Began L g) (vars dependencies : Nat) :
    Began ⟨g, L.parents, vars, dependencies⟩ g :=
  ⟨.refl g, h.parents.trans h.spans.tasks, h.wellFormed⟩

theorem within_part (h : Began L g) {vars dependencies : Nat} (hv : L.vars ≤ vars)
    (hd : L.dependencies ≤ dependencies) : Within L ⟨g, L.parents, vars, dependencies⟩ :=
  ⟨h.spans, le_rfl, hv, hd⟩

end Began

/-- States that have a graph, and moments at which one looks at a graph. -/
class Watched (σ μ : Type) where
  graph : σ → Graph
  look : μ → Look

instance : Watched Store Look := ⟨Store.graph, id⟩

instance : Watched Expansion Moment := ⟨fun e => e.store.graph, Moment.look⟩

section Legal

variable {ε σ μ α β : Type} [Watched σ μ]

/-- The graph of the state. -/
def Tape.graph (t : Tape σ μ) : Graph := Watched.graph μ t.state

variable {t t₁ t₂ : Tape σ μ}

/-- **From tape to tape** by a course. -/
def Continues (L : Limits) (t t' : Tape σ μ) : Prop :=
  ∃ seen, t'.moments = t.moments ++ seen ∧ Course L t.graph (seen.map (Watched.look σ)) t'.graph

namespace Continues

theorem refl (t : Tape σ μ) : Continues L t t := ⟨[], (List.append_nil _).symm, .done _⟩

theorem trans (h : Continues L t t₁) (h' : Continues L t₁ t₂) : Continues L t t₂ := by
  obtain ⟨seen, hseen, hcourse⟩ := h
  obtain ⟨more, hmore, hcourse'⟩ := h'
  refine ⟨seen ++ more, by rw [hmore, hseen, List.append_assoc], ?_⟩
  rw [List.map_append]
  exact hcourse.trans hcourse'

theorem within (h : Continues M t t₁) (hLM : Within L M) : Continues L t t₁ := by
  obtain ⟨seen, hseen, hcourse⟩ := h
  exact ⟨seen, hseen, hcourse.within hLM⟩

theorem writes (h : Continues L t t₁) : Writes L t.graph t₁.graph := by
  obtain ⟨seen, -, hcourse⟩ := h
  exact hcourse.writes

theorem spans (h : Continues L t t₁) : t.graph.Spans t₁.graph := h.writes.spans

end Continues

theorem Began.continues (hb : Began L t.graph) (h : Continues L t t₁) : Began L t₁.graph :=
  hb.writes h.writes

/-- **From the tape, the step goes on by a course**, however it ends; `Q` is said of a result and
the graph with it. -/
def Legal (L : Limits) (x : ExceptT ε (StateM (Tape σ μ)) α) (t : Tape σ μ)
    (Q : α → Graph → Prop) : Prop :=
  Ends x t (fun a t' => Continues L t t' ∧ Q a t'.graph) fun _ t' => Continues L t t'

variable {x : ExceptT ε (StateM (Tape σ μ)) α} {Q Q' : α → Graph → Prop}

theorem Legal.mono (h : Legal L x t Q) (himp : ∀ a g, Writes L t.graph g → Q a g → Q' a g) :
    Legal L x t Q' :=
  Ends.mono h (fun a t' h => ⟨h.1, himp a t'.graph h.1.writes h.2⟩) fun _ _ h => h

/-- A step within narrower limits. Its writes are kept in mind, since they say more. -/
theorem Legal.within (h : Legal M x t Q) (hLM : Within L M) :
    Legal L x t fun a g => Q a g ∧ Writes M t.graph g :=
  Ends.mono h (fun _ _ h => ⟨h.1.within hLM, h.2, h.1.writes⟩) fun _ _ h => h.within hLM

/-- The course of a step, however it ends. -/
theorem Legal.continues (h : Legal L x t Q) : Continues L t (x.run.run t).2 :=
  Ends.state h (fun _ _ h => h.1) fun _ _ h => h

theorem legal_pure {a : α} (h : Q a t.graph) :
    Legal L (pure a : ExceptT ε (StateM (Tape σ μ)) α) t Q :=
  ⟨.refl t, h⟩

theorem legal_throw (e : ε) : Legal L (throw e : ExceptT ε (StateM (Tape σ μ)) α) t Q :=
  Continues.refl t

theorem legal_bind {f : α → ExceptT ε (StateM (Tape σ μ)) β} {R : β → Graph → Prop}
    (hx : Legal L x t Q) (hf : ∀ a t', Continues L t t' → Q a t'.graph → Legal L (f a) t' R) :
    Legal L (x >>= f) t R := by
  unfold Legal
  rw [ends_bind]
  refine Ends.mono hx ?_ fun _ _ h => h
  rintro a t₁ ⟨h₁, hq⟩
  exact Ends.mono (hf a t₁ h₁ hq) (fun _ _ h => ⟨h₁.trans h.1, h.2⟩) fun _ _ h => h₁.trans h

/-- A loop whose results stay what they are while more is written. -/
theorem legal_mapM {P : β → Graph → Prop} (hP : ∀ b g g', Writes L g g' → P b g → P b g')
    {f : α → ExceptT ε (StateM (Tape σ μ)) β} {l : List α}
    (h : ∀ a ∈ l, ∀ t', Continues L t t' → Legal L (f a) t' P) :
    Legal L (l.mapM f) t fun bs g => ∀ b ∈ bs, P b g := by
  induction l generalizing t with
  | nil => rw [List.mapM_nil]; exact legal_pure fun _ hb => by cases hb
  | cons a l ih =>
    rw [List.mapM_cons]
    refine legal_bind (h a List.mem_cons_self t (.refl t)) fun b t₁ h₁ hb => ?_
    refine legal_bind (ih fun a ha t' h' => h a (List.mem_cons_of_mem _ ha) t' (h₁.trans h')) ?_
    intro bs t₂ h₂ hbs
    refine legal_pure fun c hc => ?_
    rcases List.mem_cons.1 hc with rfl | hc
    · exact hP c _ _ h₂.writes hb
    · exact hbs c hc

theorem legal_forM {f : α → ExceptT ε (StateM (Tape σ μ)) PUnit} {l : List α}
    (h : ∀ a ∈ l, ∀ t', Continues L t t' → Legal L (f a) t' fun _ _ => True) :
    Legal L (l.forM f) t fun _ _ => True := by
  induction l generalizing t with
  | nil => exact legal_pure trivial
  | cons a l ih =>
    refine legal_bind (h a List.mem_cons_self t (.refl t)) fun _ t₁ h₁ _ => ?_
    exact ih fun a ha t' h' => h a (List.mem_cons_of_mem _ ha) t' (h₁.trans h')

theorem legal_foldlM {f : β → α → ExceptT ε (StateM (Tape σ μ)) β} {l : List α}
    (h : ∀ b, ∀ a ∈ l, ∀ t', Continues L t t' → Legal L (f b a) t' fun _ _ => True) (b : β) :
    Legal L (l.foldlM f b) t fun _ _ => True := by
  induction l generalizing t b with
  | nil => rw [List.foldlM_nil]; exact legal_pure trivial
  | cons a l ih =>
    rw [List.foldlM_cons]
    refine legal_bind (h b a List.mem_cons_self t (.refl t)) fun c t₁ h₁ _ => ?_
    exact ih (fun b a ha t' h' => h b a (List.mem_cons_of_mem _ ha) t' (h₁.trans h')) c

theorem legal_concatEach {P : β → Graph → Prop} (hP : ∀ b g g', Writes L g g' → P b g → P b g')
    {f : α → ExceptT ε (StateM (Tape σ μ)) (List β)} {l : List α}
    (h : ∀ a ∈ l, ∀ t', Continues L t t' → Legal L (f a) t' fun bs g => ∀ b ∈ bs, P b g) :
    Legal L (concatEach f l) t fun bs g => ∀ b ∈ bs, P b g := by
  induction l generalizing t with
  | nil => exact legal_pure fun _ hb => by cases hb
  | cons a l ih =>
    refine legal_bind (h a List.mem_cons_self t (.refl t)) fun first t₁ h₁ hfirst => ?_
    refine legal_bind (ih fun a ha t' h' => h a (List.mem_cons_of_mem _ ha) t' (h₁.trans h')) ?_
    intro others t₂ h₂ hothers
    refine legal_pure fun b hb => ?_
    rcases List.mem_append.1 hb with hb | hb
    · exact hP b _ _ h₂.writes (hfirst b hb)
    · exact hothers b hb

end Legal

/-! ## Steps of loading -/

section Load

variable {α : Type} {t : Tape Store Look}

theorem legal_look {handles : Graph → List Handle} (h : ∀ m ∈ handles t.graph, t.graph.Has m) :
    Legal L (Watch.look handles) t fun g g' => g = t.graph ∧ g' = t.graph :=
  ends_look.2 ⟨⟨_, rfl, .look h (.done _)⟩, rfl, rfl⟩

theorem legal_change {f : Graph → α × Graph} (h : Write L t.graph (f t.graph).2) :
    Legal L (Watch.change f) t fun a g' => a = (f t.graph).1 ∧ g' = (f t.graph).2 :=
  ends_watch_change.2 ⟨⟨_, rfl, .write h (.done _)⟩, rfl, rfl⟩

theorem legal_update (handle : Handle) {f : Graph → Graph} (hhas : t.graph.Has handle)
    (h : Write L t.graph (f t.graph)) :
    Legal L (Watch.update handle f) t fun _ g' => g' = f t.graph := by
  refine ends_watch_update.2 ⟨⟨_, List.append_assoc .., .look ?_ (.write h (.done _))⟩, rfl⟩
  intro m hm
  rw [List.mem_singleton.1 hm]; exact hhas

/-- A step of loading that leaves the graph as it is, however it ends. -/
def Quiet (x : Load α) : Prop :=
  ∀ s, Ends x s (fun _ s' => s'.graph = s.graph) fun _ s' => s'.graph = s.graph

theorem quiet_pure (a : α) : Quiet (pure a) := fun _ => rfl

theorem quiet_throw (e : LoadError) : Quiet (throw e : Load α) := fun _ => rfl

theorem quiet_get : Quiet get := fun _ => rfl

theorem quiet_note (n : Notice) : Quiet (Load.note n) := fun _ => rfl

theorem quiet_ofExcept (r : Except LoadError α) : Quiet (Load.ofExcept r) :=
  fun _ => ends_ofExcept.2 ⟨fun _ _ => rfl, fun _ _ => rfl⟩

theorem quiet_bind {β : Type} {x : Load α} {f : α → Load β} (hx : Quiet x) (hf : ∀ a, Quiet (f a)) :
    Quiet (x >>= f) := by
  intro s
  rw [ends_bind]
  refine (hx s).mono (fun a s₁ h₁ => ?_) fun _ _ h => h
  exact (hf a s₁).mono (fun _ _ h => h.trans h₁) fun _ _ h => h.trans h₁

/-- A step that leaves the graph as it is has nothing to note. -/
theorem legal_aside {x : Load α} (h : Quiet x) : Legal L (aside x) t fun _ g' => g' = t.graph := by
  have hstays : ∀ s : Store, s.graph = t.state.graph → Continues L t { t with state := s } := by
    intro s hs
    refine ⟨[], (List.append_nil _).symm, ?_⟩
    have hgraph : Tape.graph { t with state := s } = t.graph := hs
    rw [hgraph]
    exact .done _
  exact ends_aside.2 ((h t.state).mono (fun _ s hs => ⟨hstays s hs, hs⟩) fun _ s hs => hstays s hs)

end Load

/-! ## Steps of expansion -/

section Expand

variable {α : Type} {t : Tape Expansion Moment} {inside : List Frame}

/-- A legal step of loading is one of expansion. -/
theorem legal_load {x : Watch α} {Q : α → Graph → Prop} (h : Legal L x ⟨t.state.store, []⟩ Q) :
    Legal L (WatchExpand.load inside x) t Q := by
  have hseen : ∀ t' : Tape Store Look, Continues L ⟨t.state.store, []⟩ t' → Continues L t
      ⟨{ t.state with store := t'.state },
        t.moments ++ t'.moments.map fun look => ⟨look, t.state.opened, inside⟩⟩ := by
    rintro t' ⟨seen, hseen, hcourse⟩
    refine ⟨_, rfl, ?_⟩
    rw [hseen, List.nil_append, List.map_map]
    exact hcourse
  exact ends_watch_load.2 (Ends.mono h (fun _ t' h => ⟨hseen t' h.1, h.2⟩) fun _ t' h => hseen t' h)

theorem legal_expand_look {handles : Graph → List Handle}
    (h : ∀ m ∈ handles t.graph, t.graph.Has m) :
    Legal L (WatchExpand.look inside handles) t fun g g' => g = t.graph ∧ g' = t.graph :=
  legal_load (legal_look h)

theorem legal_attempt {x : WatchExpand α} {Q : α → Graph → Prop} (h : Legal L x t Q) :
    Legal L (WatchExpand.attempt x) t fun r g => ∀ a, r = .ok a → Q a g := by
  refine ends_watch_attempt.2 (Ends.mono h (fun a t' h => ⟨h.1, ?_⟩) fun e t' h => ⟨h, ?_⟩)
  · rintro _ ⟨⟩; exact h.2
  · rintro _ ⟨⟩

/-- Keys that are open are no part of the graph. -/
theorem legal_keys {x : Expand α} (h : Ends x t.state (fun _ e => e.store = t.state.store)
    fun _ e => e.store = t.state.store) : Legal L (aside x) t fun _ g' => g' = t.graph := by
  have hstays : ∀ e : Expansion, e.store = t.state.store → Continues L t { t with state := e } := by
    intro e he
    refine ⟨[], (List.append_nil _).symm, ?_⟩
    have hgraph : Tape.graph { t with state := e } = t.graph := congrArg Store.graph he
    rw [hgraph]
    exact .done _
  exact ends_aside.2
    (h.mono (fun _ e he => ⟨hstays e he, congrArg Store.graph he⟩) fun _ e he => hstays e he)

/-- **A step inside one more target** is as legal as it is without the target. -/
theorem legal_entered {site : Site} {frame : Frame} {step : List Frame → WatchExpand α}
    {Q : α → Graph → Prop} (hQ : ∀ a g g', Writes L g g' → Q a g → Q a g')
    (h : ∀ t', Continues L t t' → t'.graph = t.graph → Legal L (step (inside ++ [frame])) t' Q) :
    Legal L (WatchExpand.entered site inside frame step) t fun r g => ∀ a, r = .ok a → Q a g := by
  unfold WatchExpand.entered
  refine legal_bind (legal_keys ?_) fun _ t₁ h₁ hg₁ => ?_
  · unfold Expand.enter
    simp only [ends_bind, ends_get]
    split
    · exact rfl
    · exact rfl
  refine legal_bind (legal_expand_look fun _ hm => by cases hm) fun _ t₂ h₂ hg₂ => ?_
  refine legal_bind (legal_attempt (h t₂ (h₁.trans h₂) (hg₂.2.trans hg₁))) fun result t₃ h₃ hq => ?_
  refine legal_bind (legal_keys (x := Expand.leave) rfl) fun _ t₄ h₄ _ => ?_
  refine legal_bind (legal_expand_look fun _ hm => by cases hm) fun _ t₅ h₅ _ => ?_
  exact legal_pure fun a ha => hQ a _ _ (h₄.trans h₅).writes (hq a ha)

/-- The failure of a directive looks at the provenance of an origin. -/
theorem legal_failed {origin : OriginId} (hg : t.graph.WellFormed) (ho : t.graph.HasOrigin origin)
    (target : String) (e : ExpandError) {Q : α → Graph → Prop} :
    Legal L (WatchExpand.failed inside origin target e : WatchExpand α) t Q := by
  have hlook : Legal L (WatchExpand.look inside fun g =>
      (visited g.outer g.origins.size origin).map .origin) t fun _ _ => True := by
    refine (legal_expand_look fun m hm => ?_).mono fun _ _ _ _ => trivial
    obtain ⟨o, hmem, rfl⟩ := List.mem_map.1 hm
    exact visited_mem (P := t.graph.HasOrigin) (fun o p ho hp => (hg.origins o ho p hp).1) ho o hmem
  cases e with
  | includeFailed | cyclicInclude => exact legal_throw _
  | load | invalidParams | tooDeep => exact legal_bind hlook fun _ _ _ _ => legal_throw _

end Expand

end Runlist

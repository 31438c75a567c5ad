import Runlist.Load.Tasks
import Runlist.Proofs.Graph.Change
import Runlist.Proofs.Graph.Trail
import Runlist.Proofs.Ordered

/-!
# Declared tasks as entities

* `Graph.Shows`: a task of a graph is what a declaration says, and so is its block.
* `stampTasks_spec`: declared tasks become new tasks that show them, in the scope that is asked for.
-/

namespace Runlist

namespace Graph

variable {g g' : Graph} {path : FilePath}

mutual
/-- A task of the graph is what a declaration in a file says. -/
def Shows (g : Graph) (path : FilePath) (x : TaskId) : TaskDeclaration → Prop
  | ⟨range, name, vars, raw, block⟩ =>
    g.HasTask x ∧ (g.origin (g.task x).origin).bare = ⟨.task, path, range, name, none⟩ ∧
      (g.task x).name = name ∧ (g.task x).vars = vars ∧ (g.task x).raw = raw ∧
      g.ShowsAll path (g.task x).block block

/-- Tasks of the graph are what declarations in a file say, in their order. -/
def ShowsAll (g : Graph) (path : FilePath) (xs : List TaskId) : List TaskDeclaration → Prop
  | [] => xs = []
  | d :: ds => ∃ x rest, xs = x :: rest ∧ g.Shows path x d ∧ g.ShowsAll path rest ds
end

theorem showsAll_iff {xs : List TaskId} {ds : List TaskDeclaration} :
    g.ShowsAll path xs ds ↔ List.Forall₂ (g.Shows path) xs ds := by
  induction ds generalizing xs with
  | nil => rw [ShowsAll, List.forall₂_nil_right_iff]
  | cons d ds ih =>
    rw [ShowsAll, List.forall₂_cons_right_iff]
    constructor
    · rintro ⟨x, rest, rfl, hx, hrest⟩
      exact ⟨x, rest, hx, ih.1 hrest, rfl⟩
    · rintro ⟨x, rest, hx, hrest, rfl⟩
      exact ⟨x, rest, rfl, hx, ih.2 hrest⟩

theorem Shows.has {x : TaskId} {d : TaskDeclaration} (h : g.Shows path x d) : g.HasTask x := by
  cases d; exact h.1

mutual
/-- A task that stays shows what it showed. -/
theorem Shows.stays (hs : g.Sound) (hg : g.Stays g') {x : TaskId} {d : TaskDeclaration}
    (h : g.Shows path x d) : g'.Shows path x d := by
  match d with
  | ⟨range, name, vars, raw, block⟩ =>
    obtain ⟨hx, hplace, hname, hvars, hraw, hblock⟩ := h
    have hsame := (hg.task x hx).same
    refine ⟨hg.keeps.hasTask hx, ?_, by rw [hsame]; exact hname, by rw [hsame]; exact hvars,
      by rw [hsame]; exact hraw, by rw [hsame]; exact ShowsAll.stays hs hg hblock⟩
    rw [(hg.keeps.task x hx).origin, hg.origin _ (hs.tasks x hx).origin]
    exact hplace

theorem ShowsAll.stays (hs : g.Sound) (hg : g.Stays g') {xs : List TaskId}
    {ds : List TaskDeclaration} (h : g.ShowsAll path xs ds) : g'.ShowsAll path xs ds := by
  match ds with
  | [] => exact h
  | d :: ds =>
    obtain ⟨x, rest, hxs, hx, hrest⟩ := h
    exact ⟨x, rest, hxs, Shows.stays hs hg hx, ShowsAll.stays hs hg hrest⟩
end

mutual
/-- What a task shows is in the tasks and origins of a graph. -/
theorem Shows.of_eq (ht : g'.tasks = g.tasks) (ho : g'.origins = g.origins) {x : TaskId}
    {d : TaskDeclaration} (h : g.Shows path x d) : g'.Shows path x d := by
  match d with
  | ⟨range, name, vars, raw, block⟩ =>
    have he : ∀ x, g'.task x = g.task x := fun _ => by rw [task, task, ht]
    obtain ⟨hx, hplace, hname, hvars, hraw, hblock⟩ := h
    refine ⟨?_, ?_, by rw [he]; exact hname, by rw [he]; exact hvars, by rw [he]; exact hraw,
      by rw [he]; exact ShowsAll.of_eq ht ho hblock⟩
    · rw [HasTask, ht]; exact hx
    · rw [he, origin, ho]; exact hplace

theorem ShowsAll.of_eq (ht : g'.tasks = g.tasks) (ho : g'.origins = g.origins) {xs : List TaskId}
    {ds : List TaskDeclaration} (h : g.ShowsAll path xs ds) : g'.ShowsAll path xs ds := by
  match ds with
  | [] => exact h
  | d :: ds =>
    obtain ⟨x, rest, hxs, hx, hrest⟩ := h
    exact ⟨x, rest, hxs, Shows.of_eq ht ho hx, ShowsAll.of_eq ht ho hrest⟩
end

/-- The handles under which tasks are stamped are those of the graph. -/
structure Admits (g : Graph) (context : TaskContext) (o : Option OriginId)
    (parent : Option TaskId) : Prop where
  role : ∀ r, context.role = some r → g.HasRole r
  play : ∀ p, context.play = some p → g.HasPlay p
  origin : ∀ o', o = some o' → g.HasOrigin o'
  parent : ∀ p, parent = some p → g.HasTask p ∧ o = some (g.task p).origin

theorem Admits.keeps {context : TaskContext} {o : Option OriginId} {parent : Option TaskId}
    (h : g.Admits context o parent) (k : g.Keeps g') : g'.Admits context o parent where
  role r hr := k.hasRole (h.role r hr)
  play p hp := k.hasPlay (h.play p hp)
  origin o' ho := k.hasOrigin (h.origin o' ho)
  parent p hp := by
    obtain ⟨hhas, ho⟩ := h.parent p hp
    exact ⟨k.hasTask hhas, by rw [(k.task p hhas).origin]; exact ho⟩

/-- The tasks that a directive includes are stamped under its handles. -/
theorem Sound.admits_included (hs : g.Sound) {x : TaskId} (hx : g.HasTask x) (path : FilePath) :
    g.Admits ⟨path, (g.task x).role, (g.task x).play⟩ (some (g.task x).origin) none where
  role := (hs.tasks x hx).role
  play := (hs.tasks x hx).play
  origin := by rintro _ ⟨⟩; exact (hs.tasks x hx).origin
  parent := by rintro _ ⟨⟩

/-- The nearest task around an origin at a task is that task. -/
theorem above_task (hs : g.Sound) {o : OriginId} {p : TaskId} (ho : g.HasOrigin o)
    (hp : g.HasTask p) (h : (g.origin o).parent = some (g.task p).origin) :
    g.above .task o = some (g.task p).origin := by
  rw [hs.origins.above_parent ho h, nearest_self (hs.tasks p hp).kind]

/-- The graph with a declared task, its block left out. -/
def stampHead (g : Graph) (context : TaskContext) (o : Option OriginId) (parent : Option TaskId)
    (range : LineRange) (name : Option String) (vars : Variables) (raw : Fields) : Graph :=
  ((g.addOrigin ⟨.task, context.path, range, name, o⟩).2.addTask
    { name, block := [], vars, raw, origin := ⟨g.origins.size⟩, parent, role := context.role
      play := context.play, cachedVars := none }).2

theorem stampTask_eq (context : TaskContext) (o : Option OriginId) (parent : Option TaskId)
    (range : LineRange) (name : Option String) (vars : Variables) (raw : Fields)
    (block : List TaskDeclaration) :
    g.stampTask context o parent ⟨range, name, vars, raw, block⟩ =
      let inner := Graph.stampTasks context (some ⟨g.origins.size⟩) (some ⟨g.tasks.size⟩)
        (g.stampHead context o parent range name vars raw) block
      (⟨g.tasks.size⟩, inner.2.modifyTask ⟨g.tasks.size⟩ fun t => { t with block := inner.1 }) := by
  rw [stampTask]; rfl

section Head

variable {context : TaskContext} {o : Option OriginId} {parent : Option TaskId} {range : LineRange}
  {name : Option String} {vars : Variables} {raw : Fields}

theorem adds_stampHead : g.Adds (g.stampHead context o parent range name vars raw) :=
  (adds_addOrigin _).trans (adds_addTask rfl)

theorem task_stampHead : (g.stampHead context o parent range name vars raw).task ⟨g.tasks.size⟩ =
    { name, block := [], vars, raw, origin := ⟨g.origins.size⟩, parent, role := context.role
      play := context.play, cachedVars := none } :=
  task_addTask_self (g := (g.addOrigin _).2) _

theorem hasTask_stampHead :
    (g.stampHead context o parent range name vars raw).HasTask ⟨g.tasks.size⟩ :=
  hasTask_addTask.2 (Or.inl rfl)

theorem origin_stampHead : (g.stampHead context o parent range name vars raw).origin
    ⟨g.origins.size⟩ = ⟨.task, context.path, range, name, o⟩ :=
  origin_addOrigin_self _

theorem Sound.stampHead (hs : g.Sound) (ha : g.Admits context o parent) (hv : Fields.Sorted vars)
    (hraw : Json.Ordered (.object raw)) :
    (g.stampHead context o parent range name vars raw).Sound := by
  have hs₁ := hs.addOrigin (o := ⟨.task, context.path, range, name, o⟩) ha.origin
  have hself := origin_addOrigin_self (g := g) ⟨.task, context.path, range, name, o⟩
  have hhas : (g.addOrigin ⟨.task, context.path, range, name, o⟩).2.HasOrigin ⟨g.origins.size⟩ :=
    hasOrigin_addOrigin.2 (Or.inl rfl)
  refine hs₁.addTask ⟨hhas, by rw [hself], fun y hy => (hs.tasks y hy).origin, fun p hp => ?_,
    ha.role, ha.play, rfl, hv, hraw, rfl⟩
  obtain ⟨hpt, ho⟩ := ha.parent p hp
  exact ⟨hpt, above_task hs₁ hhas hpt (by rw [hself]; exact ho)⟩

end Head

theorem admits_stampHead {context : TaskContext} {o : Option OriginId} {parent : Option TaskId}
    (ha : g.Admits context o parent) (range : LineRange) (name : Option String) (vars : Variables)
    (raw : Fields) : (g.stampHead context o parent range name vars raw).Admits context
      (some ⟨g.origins.size⟩) (some ⟨g.tasks.size⟩) where
  role r hr := ha.role r hr
  play p hp := ha.play p hp
  origin o' h := by cases h; exact hasOrigin_addOrigin.2 (Or.inl rfl)
  parent p h := by cases h; exact ⟨hasTask_stampHead, by rw [task_stampHead]⟩

/-- Things were only added to a graph, and it is sound. -/
structure Enlarges (g g' : Graph) : Prop where
  sound : g'.Sound
  adds : g.Adds g'

/-- A task that stamping has added. -/
structure Stamped (g g' : Graph) (context : TaskContext) (o : Option OriginId)
    (parent : Option TaskId) (x : TaskId) : Prop where
  new : ¬ g.HasTask x
  placed : g'.Placed o context.role context.play x
  parent : (g'.task x).parent = parent

theorem Stamped.adds {g₁ g₂ : Graph} {context : TaskContext} {o : Option OriginId}
    {parent : Option TaskId} {x : TaskId} (h : Stamped g g₁ context o parent x) (hs : g₁.Sound)
    (ha : g₁.Adds g₂) : Stamped g g₂ context o parent x where
  new := h.new
  placed := h.placed.keeps ha.keeps hs
  parent := by rw [ha.task x h.placed.has]; exact h.parent

theorem Stamped.weaken {g₁ g₂ : Graph} {context : TaskContext} {o : Option OriginId}
    {parent : Option TaskId} {x : TaskId} (h : Stamped g₁ g₂ context o parent x) (ha : g.Adds g₁) :
    Stamped g g₂ context o parent x :=
  ⟨fun hx => h.new (ha.keeps.hasTask hx), h.placed, h.parent⟩

/-- The tasks of a block are younger than the task that wraps them. -/
theorem Sound.block_lt (hs : g.Sound) {x c : TaskId} (hx : g.HasTask x)
    (hc : c ∈ (g.task x).block) : x.index < c.index := by
  obtain ⟨_, hplaced⟩ := (hs.tasks x hx).block c hc
  exact hs.index_lt hx (hs.origins _ _ (hs.tasks c hplaced.has).origin hplaced.origin)

mutual
/-- What a task shows is in younger tasks, so that an older one may change. -/
theorem Shows.modify (hs : g.Sound) {x y : TaskId} {f : Task → Task} {d : TaskDeclaration}
    (hlt : y.index < x.index) (h : g.Shows path x d) : (g.modifyTask y f).Shows path x d := by
  match d with
  | ⟨range, name, vars, raw, block⟩ =>
    obtain ⟨hx, hplace, hname, hvars, hraw, hblock⟩ := h
    have he : (g.modifyTask y f).task x = g.task x :=
      task_modifyTask_of_ne (by rintro rfl; exact lt_irrefl _ hlt)
    refine ⟨hasTask_modifyTask.2 hx, ?_, by rw [he]; exact hname, by rw [he]; exact hvars,
      by rw [he]; exact hraw, ?_⟩
    · rw [he]; exact hplace
    · rw [he]; exact ShowsAll.modify hs (fun c hc => lt_trans hlt (hs.block_lt hx hc)) hblock

theorem ShowsAll.modify (hs : g.Sound) {xs : List TaskId} {y : TaskId} {f : Task → Task}
    {ds : List TaskDeclaration} (hlt : ∀ x ∈ xs, y.index < x.index) (h : g.ShowsAll path xs ds) :
    (g.modifyTask y f).ShowsAll path xs ds := by
  match ds with
  | [] => exact h
  | d :: ds =>
    obtain ⟨x, rest, rfl, hx, hrest⟩ := h
    exact ⟨x, rest, rfl, Shows.modify hs (hlt x List.mem_cons_self) hx,
      ShowsAll.modify hs (fun c hc => hlt c (List.mem_cons_of_mem _ hc)) hrest⟩
end

/-- A task that gets its block is placed as before. -/
theorem Sound.setBlock (hs : g.Sound) {x : TaskId} {children : List TaskId}
    (hchildren : ∀ c ∈ children, (g.task c).parent = some x ∧
      g.Placed (some (g.task x).origin) (g.task x).role (g.task x).play c) :
    (g.modifyTask x fun t => { t with block := children }).Sound := by
  have hk : KeepsTask (g.task x) { g.task x with block := children } :=
    ⟨rfl, rfl, rfl, fun _ h => h⟩
  have k : g.Keeps (g.modifyTask x fun t => { t with block := children }) := keeps_modifyTask hk
  refine hs.modifyTask hk fun hx => ?_
  have h := hs.tasks x hx
  refine ⟨?_, ?_, fun y hy => ?_, fun p hp => ?_, fun r hr => ?_,
    fun p hp => ?_, fun c hc => ?_, ?_, ?_⟩
  · rw [(k.task x hx).origin]; exact h.origin
  · rw [(k.task x hx).origin]; exact h.kind
  · rw [(k.task x hx).origin, (k.task y (lt_trans hy hx)).origin]; exact h.order y hy
  · rw [task_modifyTask_self hx] at hp
    obtain ⟨hhas, habove⟩ := h.parent p hp
    rw [(k.task x hx).origin, (k.task p hhas).origin, above_keeps k h.origin]
    exact ⟨k.hasTask hhas, habove⟩
  · rw [(k.task x hx).role] at hr; exact h.role r hr
  · rw [(k.task x hx).play] at hp; exact h.play p hp
  · rw [task_modifyTask_self hx] at hc ⊢
    obtain ⟨hparent, hplaced⟩ := hchildren c hc
    exact ⟨(k.task c hplaced.has).parent x hparent, hplaced.keeps k hs⟩
  · rw [task_modifyTask_self hx]; exact h.vars
  · rw [task_modifyTask_self hx]; exact h.raw

mutual
/-- **A declared task becomes a new task** that shows it. -/
theorem stampTask_spec {g : Graph} (hs : g.Sound) {context : TaskContext} {o : Option OriginId}
    {parent : Option TaskId} (ha : g.Admits context o parent) {d : TaskDeclaration}
    (hd : d.Ordered) :
    Enlarges g (g.stampTask context o parent d).2 ∧
      Stamped g (g.stampTask context o parent d).2 context o parent
        (g.stampTask context o parent d).1 ∧
      (g.stampTask context o parent d).2.Shows context.path
        (g.stampTask context o parent d).1 d := by
  match d with
  | ⟨range, name, vars, raw, block⟩ =>
    rw [stampTask_eq]
    have hs₁ : (g.stampHead context o parent range name vars raw).Sound :=
      hs.stampHead ha hd.1 hd.2.1
    have hx₁ : (g.stampHead context o parent range name vars raw).HasTask ⟨g.tasks.size⟩ :=
      hasTask_stampHead
    obtain ⟨⟨hs₂, hadds⟩, hchildren, hshows⟩ :=
      stampTasks_spec hs₁ (admits_stampHead ha range name vars raw) hd.2.2
    generalize hg₂ : Graph.stampTasks context (some ⟨g.origins.size⟩) (some ⟨g.tasks.size⟩)
      (g.stampHead context o parent range name vars raw) block = inner at *
    obtain ⟨children, g₂⟩ := inner
    have ht := (hadds.task _ hx₁).trans task_stampHead
    have ho : g₂.origin ⟨g.origins.size⟩ = _ :=
      (hadds.origin _ (hasOrigin_addOrigin.2 (Or.inl rfl))).trans origin_stampHead
    have hx := hadds.keeps.hasTask hx₁
    have hnew : ¬ g.HasTask ⟨g.tasks.size⟩ := lt_irrefl _
    have he :
        (g₂.modifyTask ⟨g.tasks.size⟩ fun t => { t with block := children }).task
          ⟨g.tasks.size⟩ = _ :=
      task_modifyTask_self hx
    rw [ht] at he
    refine ⟨⟨hs₂.setBlock fun c hc => ?_, (adds_stampHead.trans hadds).modifyTask hnew ?_⟩,
      ⟨hnew, ⟨hasTask_modifyTask.2 hx, ?_, ?_, ?_⟩, ?_⟩, hasTask_modifyTask.2 hx, ?_,
      ?_, ?_, ?_, ?_⟩
    · rw [ht]; exact ⟨(hchildren c hc).parent, (hchildren c hc).placed⟩
    · rw [ht]
    · rw [he]; exact congrArg Origin.parent ho
    · rw [he]
    · rw [he]
    · rw [he]
    · rw [he]; exact congrArg Origin.bare ho
    · rw [he]
    · rw [he]
    · rw [he]
    · rw [he]
      refine hshows.modify hs₂ fun c hc => ?_
      have := (hchildren c hc).new
      unfold HasTask at this hx₁; omega

/-- **Declared tasks become new tasks** that show them. -/
theorem stampTasks_spec {g : Graph} (hs : g.Sound) {context : TaskContext} {o : Option OriginId}
    {parent : Option TaskId} (ha : g.Admits context o parent) {ds : List TaskDeclaration}
    (hd : TaskDeclaration.OrderedAll ds) :
    Enlarges g (Graph.stampTasks context o parent g ds).2 ∧
      (∀ x ∈ (Graph.stampTasks context o parent g ds).1,
        Stamped g (Graph.stampTasks context o parent g ds).2 context o parent x) ∧
      (Graph.stampTasks context o parent g ds).2.ShowsAll context.path
        (Graph.stampTasks context o parent g ds).1 ds := by
  match ds with
  | [] => rw [stampTasks]; exact ⟨⟨hs, Adds.refl g⟩, fun _ hx => (List.not_mem_nil hx).elim, rfl⟩
  | d :: ds =>
    rw [stampTasks]
    obtain ⟨⟨hs₁, hadds₁⟩, hfirst, hshow⟩ := stampTask_spec hs ha hd.1
    obtain ⟨⟨hs₂, hadds₂⟩, hrest, hshows⟩ := stampTasks_spec hs₁ (ha.keeps hadds₁.keeps) hd.2
    refine ⟨⟨hs₂, hadds₁.trans hadds₂⟩, fun x hx => ?_, _, _, rfl,
      hshow.stays hs₁ hadds₂.grows.toStays, hshows⟩
    rcases List.mem_cons.1 hx with rfl | hx
    · exact hfirst.adds hs₁ hadds₂
    · exact (hrest x hx).weaken hadds₁
end

end Graph

end Runlist

import Runlist.Proofs.Load.Stamp
import Runlist.Proofs.Spelling.Sites

/-!
# Graphs that are alike

Documents that are alike become entities that are alike: they have the same handles, and differ in
how directives are spelled and in their lines only.

* `Graph.AlikeBut`, `Graph.Alike`: graphs that are alike, with or without tasks whose block is still
  to come.
* `Graph.AlikeBut.addTask`, `Graph.AlikeBut.modifyTask` and the like: what keeps graphs alike.
* `stampTasks_alike`, `stampReferences_alike`: **declarations that are alike are stamped alike.**
* `Graph.AlikeBut.adopt`, `Graph.AlikeBut.chain`: what is done with entities that are alike.
-/

namespace Runlist

/-- Two origins that are alike: the second one may be on other lines. -/
structure Origin.Alike (lines : LineRange → LineRange → Prop) (o o' : Origin) : Prop where
  kind : o'.kind = o.kind
  path : o'.path = o.path
  line : lines o.range o'.range
  label : o'.label = o.label
  parent : o'.parent = o.parent

/-- **Two tasks that are alike**: they differ in their mappings only, and these are alike, unless
the task is a block or its block is still to come. -/
structure Task.Alike (comes : Prop) (t t' : Task) : Prop where
  same : t' = { t with raw := t'.raw }
  raw : comes ∨ t.block ≠ [] ∨ t.raw.Alike t'.raw

/-- Two plays that are alike: they differ in their mappings only, and import the same playbook, if
any. -/
structure Play.Alike (p p' : Play) : Prop where
  same : p' = { p with raw := p'.raw }
  imports : p'.importTarget? = p.importTarget?

namespace Graph

/-- **Two graphs that are alike**, but for tasks whose block is still to come. -/
structure AlikeBut (lines : LineRange → LineRange → Prop) (comes : TaskId → Prop)
    (g g' : Graph) : Prop where
  origins : g'.origins.size = g.origins.size
  tasks : g'.tasks.size = g.tasks.size
  plays : g'.plays.size = g.plays.size
  origin : ∀ o, (g.origin o).Alike lines (g'.origin o)
  task : ∀ x, Task.Alike (comes x) (g.task x) (g'.task x)
  play : ∀ p, (g.play p).Alike (g'.play p)
  roles : g'.roles = g.roles

/-- **Two graphs that are alike.** -/
abbrev Alike (lines : LineRange → LineRange → Prop) (g g' : Graph) : Prop :=
  g.AlikeBut lines (fun _ => False) g'

variable {lines : LineRange → LineRange → Prop} {comes : TaskId → Prop} {g g' : Graph}

theorem Alike.refl (hlines : ∀ l, lines l l) (g : Graph) : g.Alike lines g where
  origins := rfl
  tasks := rfl
  plays := rfl
  origin _ := ⟨rfl, rfl, hlines _, rfl, rfl⟩
  task _ := ⟨rfl, .inr (.inr (.same _))⟩
  play _ := ⟨rfl, rfl⟩
  roles := rfl

namespace AlikeBut

variable (h : g.AlikeBut lines comes g')
include h

/-! ## What is the same -/

theorem role (r : RoleId) : g'.role r = g.role r := by rw [Graph.role, Graph.role, h.roles]

theorem hasTask (x : TaskId) : g'.HasTask x ↔ g.HasTask x := by rw [HasTask, HasTask, h.tasks]

theorem hasPlay (p : PlayId) : g'.HasPlay p ↔ g.HasPlay p := by rw [HasPlay, HasPlay, h.plays]

theorem task_block (x : TaskId) : (g'.task x).block = (g.task x).block := by rw [(h.task x).same]

theorem task_vars (x : TaskId) : (g'.task x).vars = (g.task x).vars := by rw [(h.task x).same]

theorem task_origin (x : TaskId) : (g'.task x).origin = (g.task x).origin := by rw [(h.task x).same]

theorem task_parent (x : TaskId) : (g'.task x).parent = (g.task x).parent := by rw [(h.task x).same]

theorem task_role (x : TaskId) : (g'.task x).role = (g.task x).role := by rw [(h.task x).same]

theorem task_play (x : TaskId) : (g'.task x).play = (g.task x).play := by rw [(h.task x).same]

theorem task_cached (x : TaskId) :
    (g'.task x).cachedVars = (g.task x).cachedVars := by rw [(h.task x).same]

theorem play_roles (p : PlayId) : (g'.play p).roles = (g.play p).roles := by rw [(h.play p).same]

theorem taskPlay (x : TaskId) : g'.taskPlay x = g.taskPlay x := by
  unfold Graph.taskPlay
  dsimp only
  rw [h.task_role, h.task_play]
  cases (g.task x).role with
  | none => rfl
  | some r => exact congrArg Role.play (h.role r)

theorem taskPath (x : TaskId) : g'.taskPath x = g.taskPath x := by
  rw [Graph.taskPath, Graph.taskPath, h.task_origin, (h.origin _).path]

/-- The chains of origins are alike, origin by origin. -/
theorem chain (n : Nat) (o : OriginId) :
    List.Forall₂ (Origin.Alike lines) (g.chain n o) (g'.chain n o) := by
  induction n generalizing o with
  | zero => exact .nil
  | succ n ih =>
    unfold Graph.chain
    dsimp only
    rw [(h.origin o).parent]
    cases (g.origin o).parent with
    | none => exact .cons (h.origin o) .nil
    | some parent => exact List.rel_append (ih parent) (.cons (h.origin o) .nil)

theorem provenance (o : OriginId) :
    List.Forall₂ (Origin.Alike lines) (g.provenance o) (g'.provenance o) := by
  rw [Graph.provenance, Graph.provenance, h.origins]
  exact h.chain _ o

/-! ## What keeps graphs alike -/

theorem addOrigin {o o' : Origin} (ho : o.Alike lines o') :
    (g.addOrigin o).2.AlikeBut lines comes (g'.addOrigin o').2 := by
  refine { h with origins := ?_, origin := fun id => ?_ }
  · simp only [Graph.addOrigin, Array.size_push, h.origins]
  · rw [origin_addOrigin, origin_addOrigin, h.origins]
    split
    · exact ho
    · exact h.origin id

theorem addTask {t t' : Task} (ht : Task.Alike (comes ⟨g.tasks.size⟩) t t') :
    (g.addTask t).2.AlikeBut lines comes (g'.addTask t').2 := by
  refine { h with tasks := ?_, task := fun x => ?_ }
  · simp only [Graph.addTask, Array.size_push, h.tasks]
  · rw [task_addTask, task_addTask, h.tasks]
    split
    · rename_i hx
      rw [show x = ⟨g.tasks.size⟩ from congrArg TaskId.mk hx]
      exact ht
    · exact h.task x

theorem addPlay {p p' : Play} (hp : p.Alike p') :
    (g.addPlay p).2.AlikeBut lines comes (g'.addPlay p').2 := by
  refine { h with plays := ?_, play := fun id => ?_ }
  · simp only [Graph.addPlay, Array.size_push, h.plays]
  · rw [play_addPlay, play_addPlay, h.plays]
    split
    · exact hp
    · exact h.play id

theorem addRole (r : Role) : (g.addRole r).2.AlikeBut lines comes (g'.addRole r).2 :=
  { h with roles := by simp only [Graph.addRole, h.roles] }

theorem modifyRole (r : RoleId) (f : Role → Role) :
    (g.modifyRole r f).AlikeBut lines comes (g'.modifyRole r f) :=
  { h with roles := by simp only [Graph.modifyRole, h.roles] }

theorem modifyPlay {p : PlayId} {f : Play → Play} (hf : ∀ q q', q.Alike q' → (f q).Alike (f q')) :
    (g.modifyPlay p f).AlikeBut lines comes (g'.modifyPlay p f) := by
  refine { h with plays := ?_, play := fun id => ?_ }
  · simp only [Graph.modifyPlay, Array.size_modify, h.plays]
  · simp only [play_modifyPlay, h.hasPlay]
    split
    · exact hf _ _ (h.play p)
    · exact h.play id

end AlikeBut

namespace Alike

/-- A change of one task that leaves its mapping and its block alone. -/
theorem fillTask (h : g.Alike lines g') {x : TaskId} {f : Task → Task}
    (hsame : ∀ t t', t' = { t with raw := t'.raw } → f t' = { f t with raw := (f t').raw })
    (hraw : ∀ t, (f t).raw = t.raw) (hblock : ∀ t, (f t).block = t.block) :
    (g.modifyTask x f).Alike lines (g'.modifyTask x f) := by
  refine { h with tasks := ?_, task := fun y => ?_ }
  · simp only [Graph.modifyTask, Array.size_modify, h.tasks]
  · simp only [task_modifyTask, h.hasTask]
    split
    · refine ⟨hsame _ _ (h.task x).same, ?_⟩
      rw [hraw, hraw, hblock]
      exact (h.task x).raw
    · exact h.task y

theorem chainRoot (h : g.Alike lines g') (parent : TaskId) (n : Nat) (x : TaskId) :
    g'.chainRoot parent n x = g.chainRoot parent n x := by
  induction n generalizing x with
  | zero => rfl
  | succ n ih =>
    unfold Graph.chainRoot
    rw [h.task_parent]
    cases (g.task x).parent with
    | none => rfl
    | some next => simp only [ih]

theorem adoptOne (h : g.Alike lines g') (parent x : TaskId) :
    (g.adoptOne parent x).Alike lines (g'.adoptOne parent x) := by
  unfold Graph.adoptOne
  dsimp only
  rw [h.tasks, h.chainRoot, h.task_parent]
  split
  · exact h.fillTask (fun t t' ht => by rw [ht]) (fun _ => rfl) fun _ => rfl
  · exact h

/-- Tasks that are alike are adopted alike. -/
theorem adopt (h : g.Alike lines g') (xs : List TaskId) (parent : TaskId) :
    (g.adopt xs parent).Alike lines (g'.adopt xs parent) := by
  unfold Graph.adopt
  induction xs generalizing g g' with
  | nil => exact h
  | cons x xs ih => exact ih (h.adoptOne parent x)

end Alike

/-! ## Stamping -/

/-- The task of a block, before its block. -/
theorem AlikeBut.stampHead (h : g.AlikeBut lines comes g') (context : TaskContext)
    (o : Option OriginId) (parent : Option TaskId) {range range' : LineRange}
    (hline : lines range range') (name : Option String) (vars : Variables) (raw raw' : Fields) :
    (g.stampHead context o parent range name vars raw).AlikeBut lines (fun x => comes x ∨
      x = ⟨g.tasks.size⟩)
      (g'.stampHead context o parent range' name vars raw') := by
  have hweak : g.AlikeBut lines (fun x => comes x ∨ x = ⟨g.tasks.size⟩) g' :=
    { h with task := fun x => ⟨(h.task x).same, (h.task x).raw.imp_left .inl⟩ }
  unfold Graph.stampHead
  rw [h.origins]
  have horigin :
      Origin.Alike lines ⟨.task, context.path, range, name, o⟩
        ⟨.task, context.path, range', name, o⟩ :=
    ⟨rfl, rfl, hline, rfl, rfl⟩
  exact (hweak.addOrigin horigin).addTask ⟨rfl, .inl (.inr rfl)⟩

/-- Its block comes, or it has none. -/
theorem AlikeBut.setBlock {x : TaskId} (h : g.AlikeBut lines (fun y => comes y ∨ y = x) g')
    {block : List TaskId} (hblock : block ≠ [] ∨ (g.task x).raw.Alike (g'.task x).raw) :
    (g.modifyTask x fun t => { t with block }).AlikeBut lines comes
      (g'.modifyTask x fun t => { t with block }) := by
  refine { h with tasks := ?_, task := fun y => ?_ }
  · simp only [Graph.modifyTask, Array.size_modify, h.tasks]
  · simp only [task_modifyTask, h.hasTask]
    by_cases hy : y = x
    · subst hy
      by_cases hx : g.HasTask y
      · rw [if_pos ⟨rfl, hx⟩, if_pos ⟨rfl, hx⟩]
        refine ⟨?_, .inr hblock⟩
        rw [(h.task y).same]
      · rw [if_neg fun hy' => hx hy'.2, if_neg fun hy' => hx hy'.2, task_of_not_has hx,
          task_of_not_has ((not_congr (h.hasTask y)).2 hx)]
        exact ⟨rfl, .inr (.inr (.same _))⟩
    · rw [if_neg fun hy' => hy hy'.1, if_neg fun hy' => hy hy'.1]
      exact ⟨(h.task y).same, (h.task y).raw.imp_left fun hc => hc.resolve_right hy⟩

mutual
/-- **A task that is alike is stamped alike.** -/
theorem stampTask_alike (context : TaskContext) (o : Option OriginId) (parent : Option TaskId) :
    ∀ {d d' : TaskDeclaration}, d.Alike lines d' → ∀ {comes : TaskId → Prop} {g g' : Graph},
      g.AlikeBut lines comes g' →
      (g'.stampTask context o parent d').1 = (g.stampTask context o parent d).1 ∧
        (g.stampTask context o parent d).2.AlikeBut lines comes (g'.stampTask context o parent d').2
  | _, _, @TaskDeclaration.Alike.single _ range range' name vars raw raw' hline
    hraw, comes, g, g', h => by
    rw [stampTask_eq, stampTask_eq, h.origins, h.tasks]
    unfold Graph.stampTasks
    refine ⟨rfl, (h.stampHead context o parent hline name vars raw raw').setBlock (.inr ?_)⟩
    rw [task_stampHead, ← h.tasks, task_stampHead]
    exact hraw
  | _, _, @TaskDeclaration.Alike.block _ range range' name vars raw raw' d d' ds ds' hline
    hblock, comes, g, g', h => by
    rw [stampTask_eq, stampTask_eq, h.origins, h.tasks]
    have hhead := h.stampHead context o parent hline name vars raw raw'
    obtain ⟨hids, halike⟩ :=
      stampTasks_alike context (some ⟨g.origins.size⟩) (some ⟨g.tasks.size⟩) hblock hhead
    dsimp only
    rw [hids]
    refine ⟨rfl, halike.setBlock (.inl ?_)⟩
    unfold Graph.stampTasks
    exact List.cons_ne_nil _ _

/-- **So are lists of tasks.** -/
theorem stampTasks_alike (context : TaskContext) (o : Option OriginId) (parent : Option TaskId) :
    ∀ {ds ds' : List TaskDeclaration}, TaskDeclaration.AllAlike lines ds ds' →
      ∀ {comes : TaskId → Prop} {g g' : Graph}, g.AlikeBut lines comes g' →
      (g'.stampTasks context o parent ds').1 = (g.stampTasks context o parent ds).1 ∧
        (g.stampTasks context o parent ds).2.AlikeBut lines comes
          (g'.stampTasks context o parent ds').2
  | _, _, .nil, _, _, _, h => by
    unfold Graph.stampTasks
    exact ⟨rfl, h⟩
  | _, _, .cons hd hds, _, _, _, h => by
    unfold Graph.stampTasks
    obtain ⟨hfirst, h₁⟩ := stampTask_alike context o parent hd h
    obtain ⟨hrest, h₂⟩ := stampTasks_alike context o parent hds h₁
    exact ⟨congrArg₂ List.cons hfirst hrest, h₂⟩
end

/-- References that are alike are stamped alike. -/
theorem AlikeBut.stampReferences (h : g.AlikeBut lines comes g') (path : FilePath) (o : OriginId)
    {refs refs' : List RoleReference}
    (hrefs : List.Forall₂ (RoleReference.Alike lines) refs refs') :
    (g'.stampReferences path o refs').1 = (g.stampReferences path o refs).1 ∧
      (g.stampReferences path o refs).2.AlikeBut lines comes
        (g'.stampReferences path o refs').2 := by
  induction hrefs generalizing g g' with
  | nil => exact ⟨rfl, h⟩
  | @cons r r' _ _ hr _ ih =>
    have horigin : Origin.Alike lines ⟨.roleDefinition, path, r.range, some r.name, some o⟩
        ⟨.roleDefinition, path, r'.range, some r'.name, some o⟩ :=
      ⟨rfl, rfl, hr.line, congrArg some hr.name, rfl⟩
    obtain ⟨hrest, halike⟩ := ih (h.addOrigin horigin)
    unfold Graph.stampReferences Graph.stampReference
    refine ⟨congrArg₂ List.cons ?_ hrest, halike⟩
    show (⟨r'.name, r'.vars, ⟨g'.origins.size⟩⟩ : RoleDefinition) =
      ⟨r.name, r.vars, ⟨g.origins.size⟩⟩
    rw [hr.name, hr.vars, h.origins]

theorem AlikeBut.stampMeta (h : g.AlikeBut lines comes g') (hlines : ∀ l, lines l l)
    (path : FilePath) (o : OriginId) (m : MetaDeclaration) :
    (g'.stampMeta path o m).1 = (g.stampMeta path o m).1 ∧
    (g.stampMeta path o m).2.AlikeBut lines comes (g'.stampMeta path o m).2 := by
  have hnext :=
    h.addOrigin (o := ⟨.roleMeta, path, m.range, none, some o⟩) ⟨rfl, rfl, hlines _, rfl, rfl⟩
  obtain ⟨hrest, halike⟩ := hnext.stampReferences path ⟨g.origins.size⟩
    (List.forall₂_same.2 fun r (_ : r ∈ m.dependencies) => ⟨hlines _, rfl, rfl⟩)
  unfold Graph.stampMeta Graph.addOrigin
  dsimp only
  rw [h.origins]
  exact ⟨congrArg (RoleMeta.mk (some ⟨g.origins.size⟩)) hrest, halike⟩

theorem AlikeBut.stampPlay (h : g.AlikeBut lines comes g') (path : FilePath) (o : Option OriginId)
    {d d' : PlayDeclaration} (hd : d.Alike lines d') :
    (g'.stampPlay path o d').1 = (g.stampPlay path o d).1 ∧
      (g.stampPlay path o d).2.AlikeBut lines comes (g'.stampPlay path o d').2 := by
  have horigin :
      Origin.Alike lines ⟨.play, path, d.range, d.name, o⟩ ⟨.play, path, d'.range, d.name, o⟩ :=
    ⟨rfl, rfl, hd.line, rfl, rfl⟩
  have himports : (Action.playbookImports.findSome? fun k => d'.raw.get? k) =
      Action.playbookImports.findSome? fun k => d.raw.get? k := by
    have hvalues := congrArg (List.findSome? id) (List.map_congr_left hd.imports)
    rwa [List.findSome?_map, List.findSome?_map] at hvalues
  unfold Graph.stampPlay Graph.addOrigin Graph.addPlay
  dsimp only
  rw [h.origins, h.plays, hd.name, hd.hosts, hd.vars, hd.varsFiles]
  refine ⟨rfl, ?_⟩
  have hplay :
      Play.Alike ⟨d.name, d.hosts, [], [], [], [], d.vars, d.varsFiles, d.raw, [], ⟨g.origins.size⟩⟩
      ⟨d.name, d.hosts, [], [], [], [], d.vars, d.varsFiles, d'.raw, [], ⟨g.origins.size⟩⟩ :=
    ⟨rfl, congrArg (·.bind Json.string?) himports⟩
  exact (h.addOrigin horigin).addPlay hplay

end Graph

end Runlist

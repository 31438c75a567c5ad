import Runlist.Proofs.Outcome.Expansion

/-!
# Questions and their answers

What may be asked about entities, and what is seen of the answer: variables, names of roles, and the
tasks of an expansion. Handles are no part of what is seen.

* `Question`, `Answer`, `Question.ask`: what is asked, and how a state answers it.
* `Question.answer`: the answer on the documents.
* `Question.ask_follows`: **a state answers as its documents do.**
-/

namespace Runlist

/-- What may be asked about entities. -/
inductive Question where
  | vars (play : Option PlayId) (task : Option TaskId)
  | taskVars (task : TaskId)
  | defaultVars (role : RoleId)
  | dependencies (role : RoleId)
  | task (task : TaskId)
  | tasks (tasks : List TaskId)
  | role (role : RoleId)
  | play (play : PlayId)
  | playbook (playbook : Playbook)

/-- What is seen of an answer. -/
inductive Answer where
  | vars (vars : Variables)
  | names (names : List String)
  | leaves (leaves : List Leaf)

/-- The tasks of an expansion, as they are seen. -/
def Expand.leaves (step : Expand (List TaskId)) : Expand Answer := do
  let ids ← step
  return .leaves (ids.map (← Expand.graph).leaf)

/-- The names of some roles. -/
def Expand.names (step : Load (List RoleId)) : Expand Answer := do
  let roles ← Expand.load step
  let g ← Expand.graph
  return .names (roles.map fun r => (g.role r).name)

namespace Question

/-- The handles in a question are those of the graph. -/
def Valid (g : Graph) : Question → Prop
  | vars p x => (∀ p', p = some p' → g.HasPlay p') ∧ ∀ x', x = some x' → g.HasTask x'
  | taskVars x => g.HasTask x
  | defaultVars r => g.HasRole r
  | dependencies r => g.HasRole r
  | task x => g.HasTask x
  | tasks xs => ∀ x ∈ xs, g.HasTask x
  | role r => g.HasRole r
  | play p => g.HasPlay p
  | playbook pb => ∀ p ∈ pb.plays, g.HasPlay p

/-- A question that is asked, with a bound on nested expansions. -/
def ask (site : Site) (t : Templater) (n : Nat) : Question → Expand Answer
  | vars p x => return .vars (← Expand.load (resolveVars site p x))
  | taskVars x => return .vars (← Expand.load (Runlist.taskVars site x))
  | defaultVars r => return .vars (← Expand.load (Runlist.defaultVars site r))
  | dependencies r => Expand.names (allDependencies site r)
  | task x => Expand.leaves (expandTask site t n x)
  | tasks xs => Expand.leaves (concatEach (expandTask site t n) xs)
  | role r => Expand.leaves (expandRole site t n r)
  | play p => Expand.leaves (expandPlay site t n p)
  | playbook pb => Expand.leaves (expandPlaybook site t n pb)

/-- **The answer on the documents**, for entities that a graph has. -/
def answer (site : Site) (t : Templater) (n : Nat) (opened : List String) (g : Graph) :
    Question → Except ExpandError Answer
  | vars p x => do
    let vars ← (site.resolve ((g.defaultRoles p x).map g.namedHead) (p.map g.playPlace)
      (g.ownVars x)).mapError .load
    return .vars vars
  | taskVars x => do
    let vars ← ((g.place x).resolve site (g.task x).vars).mapError .load
    return .vars vars
  | defaultVars r => do
    let heads ← (site.layers (g.namedHead r)).mapError .load
    return .vars (Variables.ofSources (heads.map (·.defaults)))
  | dependencies r => do
    let heads ← (site.layers (g.namedHead r)).mapError .load
    return .names (heads.dropLast.map (·.name))
  | task x => do return .leaves (← taskOutcome site t n opened (g.taskNode x))
  | tasks xs => do return .leaves (← concatEach (taskOutcome site t n opened) (xs.map g.taskNode))
  | role r => do return .leaves (← roleOutcome site t n opened [] (g.roleNode r))
  | play p => do return .leaves (← playOutcome site t n opened (g.playNode p))
  | playbook pb => do return .leaves (← playbookOutcome site t n opened (g.playbookNode pb))

variable {site : Site} {t : Templater} {n : Nat} {e : Expansion} {q : Question}

/-! ## Answers from the documents -/

/-- A step answers as is said. -/
def Answers (step : Expand Answer) (e : Expansion) (a : Except ExpandError Answer) : Prop :=
  Ends step e (fun answer _ => a = .ok answer) fun err _ => a = .error err.bare

/-- An expansion that follows an outcome answers with its leaves. -/
theorem answers_leaves {step : Expand (List TaskId)} {o : Except ExpandError (List Leaf)}
    (h : Follows site step e o) : Answers (Expand.leaves step) e (do return .leaves (← o)) := by
  unfold Answers Expand.leaves
  simp only [ends_bind, ends_expand_graph, ends_pure]
  refine h.mono ?_ ?_
  · rintro ids e' ⟨-, leaves, ho, hleaves⟩
    rw [ho, hleaves.leaves]; rfl
  · rintro err e' ⟨-, ho⟩
    rw [ho]; rfl

/-- Variables that are those of the documents. -/
theorem answers_vars {step : Load Variables} {o : Except LoadError Variables}
    (h : Ends step e.store (fun vars _ => o = .ok vars) fun err _ => o = .error err) :
    Answers (do return .vars (← Expand.load step)) e (do return .vars (← o.mapError .load)) := by
  unfold Answers
  simp only [ends_bind, ends_load, ends_pure]
  refine h.mono ?_ ?_
  · rintro vars _ ho
    rw [ho]; rfl
  · rintro err _ ho
    rw [ho]; rfl

/-- **A state answers as its documents do.** -/
theorem ask_follows (hordered : site.disk.tree.Ordered) (hs : e.store.graph.Sound)
    (hf : Faithful site e.store) (hq : q.Valid e.store.graph) :
    Answers (q.ask site t n) e (q.answer site t n e.opened e.store.graph) := by
  cases q with
  | vars p x =>
    exact answers_vars
      ((resolveVars_follows hs hq.1 hq.2 hf hordered).mono (fun _ _ h => h.2) fun _ _ h => h.2)
  | taskVars x =>
    exact answers_vars
      ((taskVars_follows hs hf hordered hq).mono (fun _ _ h => h.2) fun _ _ h => h.2)
  | defaultVars r =>
    unfold ask answer Answers
    simp only [ends_bind, ends_load, ends_pure]
    refine (defaultVars_follows hs hf hordered hq).mono ?_ ?_
    · rintro vars _ ⟨-, heads, hheads, -, rfl⟩
      rw [hheads]; rfl
    · rintro err _ ⟨-, hfail⟩
      rw [hfail]; rfl
  | dependencies r =>
    unfold ask answer Answers Expand.names
    simp only [ends_bind, ends_load, ends_expand_graph, ends_pure]
    refine (allDependencies_follows hs hf hordered hq).mono ?_ ?_
    · rintro found s' ⟨-, heads, hheads, hof⟩
      have hnames : heads.dropLast.map (·.name) = found.map fun d => (s'.graph.role d).name := by
        rw [hof.heads, List.map_append, List.map_singleton, List.dropLast_concat, List.map_map]; rfl
      rw [hheads, ← hnames]; rfl
    · rintro err _ ⟨-, hfail⟩
      rw [hfail]; rfl
  | task x => exact answers_leaves (expandTask_follows hordered n x e hs hf hq)
  | tasks xs => exact answers_leaves (concatEach_tasks (expandTask_follows hordered n) hs hf hq)
  | role r => exact answers_leaves (expandRoleOn_follows hordered n r [] e hs hf hq)
  | play p => exact answers_leaves (expandPlay_follows hordered n p e hs hf hq)
  | playbook pb => exact answers_leaves (expandPlaybook_follows hordered n pb e hs hf hq)

/-! ## Answers stay -/

theorem Valid.keeps {g g' : Graph} (h : g.Keeps g') (hq : q.Valid g) : q.Valid g' := by
  cases q with
  | vars p x => exact ⟨fun p' hp => h.hasPlay (hq.1 p' hp), fun x' hx => h.hasTask (hq.2 x' hx)⟩
  | taskVars x => exact h.hasTask hq
  | defaultVars r => exact h.hasRole hq
  | dependencies r => exact h.hasRole hq
  | task x => exact h.hasTask hq
  | tasks xs => exact fun x hx => h.hasTask (hq x hx)
  | role r => exact h.hasRole hq
  | play p => exact h.hasPlay hq
  | playbook pb => exact fun p hp => h.hasPlay (hq p hp)

/-- The answer on the documents stays while a state grows. -/
theorem answer_stays {s s' : Store} (hs : s.graph.Sound) (h : s.graph.Grows s'.graph)
    {opened : List String} (hq : q.Valid s.graph) : q.answer site t n opened s'.graph =
      q.answer site t n opened s.graph := by
  have hst := h.toStays
  cases q with
  | vars p x =>
    have hheads : (s.graph.defaultRoles p x).map s'.graph.namedHead =
        (s.graph.defaultRoles p x).map s.graph.namedHead :=
      List.map_congr_left fun r hr =>
        Graph.namedHead_stays hst (hasRole_defaultRoles hs hq.1 hq.2 r hr)
    simp only [answer, defaultRoles_grows hq.1 hq.2 h, hheads, Graph.playPlaces_stays hs hst hq.1,
      Graph.ownVars_stays hs hst hq.2]
  | taskVars x =>
    have hvars : (s'.graph.task x).vars = (s.graph.task x).vars := by rw [(hst.task x hq).same]
    simp only [answer, Graph.place_stays hs hst hq, hvars]
  | defaultVars r => simp only [answer, Graph.namedHead_stays hst hq]
  | dependencies r => simp only [answer, Graph.namedHead_stays hst hq]
  | task x => simp only [answer, Graph.taskNode_stays hs hst hq]
  | tasks xs => simp only [answer, Graph.taskNodes_stays hs hst hq]
  | role r => simp only [answer, Graph.roleNode_stays hs hst hq]
  | play p => simp only [answer, Graph.playNode_stays hs hst hq]
  | playbook pb => simp only [answer, Graph.playbookNode_stays hs hst hq]

end Question

end Runlist

import Runlist.Proofs.Directives
import Runlist.Proofs.Expand.Endings
import Runlist.Proofs.Omission.Expand

/-!
# Parameters that cannot be rendered

A text that stands for the parameter of a directive has to be rendered. In a mapping, a parameter
that cannot be rendered is dropped, and what is expanded is the directive without it.

* `Store.without`: a state in which a directive is declared without one of its parameters.
* `reply_without`: what is seen of the directive is the same there.
* `unrendered_parameter`: **a parameter that cannot be rendered counts as not declared**; the
  directive fails if it needs the parameter.
* `unrendered_selection`: a role whose selected file cannot be rendered gives its main tasks.
-/

namespace Runlist

variable {site : Site} {s : Store} {x : TaskId} {t : Templater} {n : Nat} {action key : String}
  {kind : TaskKind} {vars : Variables} {params : Fields}

/-- What is rendered has no parameter that cannot be rendered. -/
theorem Unrendered.get? (h : Unrendered t vars params key) :
    (renderedParams t vars params).get? key = none := by
  refine Fields.get?_eq_none fun entry hentry hkey => ?_
  obtain ⟨⟨k, value⟩, hmem, hvalue⟩ := List.mem_filterMap.1 hentry
  obtain ⟨v, hv, rfl⟩ := Option.map_eq_some_iff.1 hvalue
  cases hkey
  obtain ⟨err, herr⟩ := h.fails value hmem
  rw [herr] at hv
  cases hv

/-- The parameter that a directive needs. -/
def TaskKind.needed : TaskKind → Option String
  | .taskInclude => some "file"
  | .roleInclude => some "name"
  | _ => none

theorem TaskInclude.ofJson_missing (h : params.get? "file" = none) :
    TaskInclude.ofJson (.object params) = .error (.missingField "file") := by
  rw [TaskInclude.ofJson, h]

theorem RoleInclude.ofJson_missing (h : params.get? "name" = none) :
    ∃ reason, RoleInclude.ofJson (.object params) = .error reason := by
  cases hread : RoleInclude.ofJson (.object params) with
  | error reason => exact ⟨reason, rfl⟩
  | ok p =>
    -- the name is read second, and asked for last
    rw [RoleInclude.ofJson] at hread
    obtain ⟨_, -, hread⟩ := except_bind_ok.1 hread
    obtain ⟨name, hname, hread⟩ := except_bind_ok.1 hread
    obtain ⟨_, -, hread⟩ := except_bind_ok.1 hread
    obtain ⟨_, -, hread⟩ := except_bind_ok.1 hread
    obtain ⟨_, -, hread⟩ := except_bind_ok.1 hread
    rw [Shape.field, h] at hname
    cases hname
    cases hread

/-! ## The directive without the parameter -/

/-- **The state in which a directive is declared without one of its parameters**, otherwise as it
is. -/
def Store.without (s : Store) (x : TaskId) (action key : String) : Store :=
  { s with
    graph := s.graph.modifyTask x fun task => { task with raw := task.raw.without action key } }

/-- It differs in the parameter only. -/
theorem Store.omits_without (hx : s.graph.HasTask x) (action key : String) :
    s.Omits ⟨x, (s.graph.task x).raw, action, key⟩ none (s.without x action key) where
  graph :=
    { origins := rfl
      plays := rfl
      roles := rfl
      tasks := Array.size_modify ..
      task := fun y => by
        simp only [without, Graph.task_modifyTask]
        split
        · rename_i hy
          rw [hy.1]
        · rfl
      raw := fun y hy => by rw [without, Graph.task_modifyTask_of_ne hy]
      omitted := by rw [without, Graph.task_modifyTask_self hx]
      declared := rfl
      has := hx
      known := by rintro _ ⟨⟩ }
  roleDirs := rfl

/-- The action of a directive is the one that counts. -/
theorem Task.Directive.unseen (hd : (s.graph.task x).Directive kind action)
    (hraw : (s.graph.task x).raw.get? action = some (.object params))
    (h : Unrendered t vars params key) :
    Omission.Unseen t vars ⟨x, (s.graph.task x).raw, action, key⟩ where
  counts := by
    cases hd with
    | file _ ha => exact .inl ha
    | role _ hn ha => exact .inr ⟨hn, ha⟩
  fails := ⟨params, hraw, h⟩

/-- A directive is expanded to other tasks, never to itself. -/
theorem Graph.IsLeaf.ne_directive {g : Graph} {y : TaskId} {o : Omission} {known : Option Variables}
    {g' : Graph} (hy : g.IsLeaf y) (h : o.Unseen t vars) (hg : g.Omits o known g') :
    y ≠ o.task := by
  rintro rfl
  obtain ⟨-, htask, hrole⟩ := Task.kind_leaf hy.kind
  simp only [Task.taskInclude?, Task.roleInclude?, Task.firstAction?, hg.declared] at htask hrole
  rcases h.counts with hc | ⟨-, hc⟩
  · rw [hc] at htask; cases htask
  · rw [hc] at hrole; cases hrole

/-- **What is seen of the directive is the same** in the state in which it is declared without the
parameter. -/
theorem reply_without (hs : s.graph.Sound) (hx : s.graph.HasTask x)
    (hd : (s.graph.task x).Directive kind action) {s' : Store}
    (hvars : (taskVars site x).run.run s = (.ok vars, s'))
    (hraw : (s.graph.task x).raw.get? action = some (.object params))
    (h : Unrendered t vars params key) (n : Nat) (opened : List String) :
    (Question.task x).reply site t n opened s =
    (Question.task x).reply site t n opened (s.without x action key) := by
  have hunseen := hd.unseen hraw h
  have hblock : (s.graph.task x).block = [] := by cases hd <;> assumption
  have homits :
      Expansion.Omits ⟨x, (s.graph.task x).raw, action, key⟩ none ⟨s, opened⟩
        ⟨s.without x action key, opened⟩ :=
    ⟨s.omits_without hx action key, rfl⟩
  have htwin :=
    expandTask_omits hunseen homits hblock hvars ((taskVars_remembers hs hx).of_ok hvars) n
  have hleaves : Ripens site (expandTask site t n x) ⟨s, opened⟩ :=
    expandTask_leaves n x ⟨s, opened⟩ hs hx
  unfold Question.reply
  rw [Question.ask, Expand.leaves, run_bind, run_bind]
  revert htwin
  unfold TwinAt
  rcases hrun : (expandTask site t n x).run.run ⟨s, opened⟩ with ⟨r, e⟩
  rcases (expandTask site t n x).run.run ⟨s.without x action key, opened⟩ with ⟨r', e'⟩
  rintro ⟨hresult, hends⟩
  obtain rfl : r' = r := Both.eq hresult
  cases r' with
  | error err => rfl
  | ok ids =>
    have hg := hends.store.graph
    have hleaf : ids.map e.store.graph.leaf = ids.map e'.store.graph.leaf := by
      refine List.map_congr_left fun y hy => ?_
      have hne := ((hleaves.of_ok hrun).2 y hy).ne_directive hunseen hg
      rw [Graph.leaf, Graph.leaf, hg.taskPath, hg.task_name, hg.raw y hne]
    exact congrArg (fun leaves => Except.ok (Answer.leaves leaves)) hleaf

/-! ## What becomes of the directive -/

/-- The parameters of a directive that is a text or a mapping, over variables that are known. -/
theorem run_written {α : Type} {read : Json → Except ShapeError α} {textKey : String} {value : Json}
    {s' : Store} (hvars : (taskVars site x).run.run s = (.ok vars, s'))
    (hraw : (s.graph.task x).raw.get? action = some value)
    (hvalue : (∃ text, value = .string text) ∨ ∃ params, value = .object params) :
    (includeParams site t read textKey x action).run.run ⟨s, []⟩ =
      (renderWritten t textKey action vars value >>= readParams read action).run.run ⟨s', []⟩ := by
  rw [run_includeParams hraw hvalue, run_bind, run_load, hvars]
  rfl

/-- A text that cannot be rendered is no parameter. -/
theorem includeParams_of_text {α : Type} {read : Json → Except ShapeError α} {textKey text : String}
    {err : TemplateError} {s' : Store} (hvars : (taskVars site x).run.run s = (.ok vars, s'))
    (hraw : (s.graph.task x).raw.get? action = some (.string text))
    (ht : t.evaluate text vars = .error err) :
    (includeParams site t read textKey x action).run.run ⟨s, []⟩ =
      (.error (.invalidParams action (.unrendered text err)), ⟨s', []⟩) := by
  rw [run_written hvars hraw (.inl ⟨text, rfl⟩), renderWritten, ht]
  rfl

/-- What a directive gets from a mapping that does not have the shape of its parameters. -/
theorem includeParams_of_mapping {α : Type} {read : Json → Except ShapeError α} {textKey : String}
    {reason : ShapeError} {s' : Store} (hvars : (taskVars site x).run.run s = (.ok vars, s'))
    (hraw : (s.graph.task x).raw.get? action = some (.object params))
    (hread : read (.object (renderedParams t vars params)) = .error reason) :
    ∃ e, (includeParams site t read textKey x action).run.run ⟨s, []⟩ =
      (.error (.invalidParams action (.shape reason)), e) := by
  rw [run_written hvars hraw (.inr ⟨params, rfl⟩), renderWritten]
  have hends : Ends (renderParams t vars action params) s' _ _ := renderParams_ends site
  rcases hrun : (renderParams t vars action params).run.run s' with ⟨err | fields, s₂⟩
  · exact (hends.of_error hrun).elim
  · obtain ⟨-, rfl⟩ := hends.of_ok hrun
    refine ⟨⟨s₂, []⟩, ?_⟩
    rw [run_bind, run_bind, run_load, hrun]
    show (readParams read action (.object (renderedParams t vars params))).run.run ⟨s₂, []⟩ = _
    rw [readParams, hread]
    rfl

/-- **A parameter that cannot be rendered counts as not declared.** In any state that is reached, a
directive whose text cannot be rendered fails, with a chain that ends with it. Of a directive with a
mapping, a parameter that cannot be rendered is dropped: what is seen is what is seen of the same
directive without it, whatever is being expanded around it. So it fails if it needs the
parameter. -/
theorem unrendered_parameter {sites : Site → Prop} (h : Reachable sites s) (site : Site)
    (hx : s.graph.HasTask x) (hd : (s.graph.task x).Directive kind action) {s' : Store}
    (hvars : (taskVars site x).run.run s = (.ok vars, s')) (t : Templater) :
    (∀ text err, (s.graph.task x).raw.get? action = some (.string text) →
      t.evaluate text vars = .error err →
      ∀ n, ∃ wording, (Question.task x).reply site t (n + 1) [] s = .error
        (.includeFailed (s.graph.taskNode x).chain action
          (.invalidParams action (.unrendered text err)), wording)) ∧
    ∀ params key, (s.graph.task x).raw.get? action = some (.object params) →
      Unrendered t vars params key →
      (∀ n opened, (Question.task x).reply site t n opened s =
        (Question.task x).reply site t n opened (s.without x action key)) ∧
      (kind.needed = some key →
        ∀ n, ∃ reason wording, (Question.task x).reply site t (n + 1) [] s = .error
        (.includeFailed (s.graph.taskNode x).chain action (.invalidParams action (.shape reason)),
          wording)) := by
  have hs := h.sound
  have hfails : ∀ {target err}, Misses site t s x kind action target err → ∀ n, ∃ wording,
      (Question.task x).reply site t (n + 1) [] s =
        .error (.includeFailed (s.graph.taskNode x).chain target err, wording) :=
    fun hmiss n => reply_of_fails (hmiss.fails hs hx hd n)
  refine ⟨fun text err hraw ht n => ?_, fun params key hraw hun =>
    ⟨reply_without hs hx hd hvars hraw hun, fun hneeded n => ?_⟩⟩
  · cases hd with
    | file => exact hfails (.fileParams (includeParams_of_text hvars hraw ht)) n
    | role => exact hfails (.roleParams (includeParams_of_text hvars hraw ht)) n
  · cases hd with
    | file =>
      cases hneeded
      obtain ⟨e, hrun⟩ := includeParams_of_mapping hvars hraw (TaskInclude.ofJson_missing hun.get?)
      exact ⟨_, hfails (.fileParams hrun) n⟩
    | role =>
      cases hneeded
      obtain ⟨reason, hreason⟩ := RoleInclude.ofJson_missing hun.get?
      obtain ⟨e, hrun⟩ := includeParams_of_mapping hvars hraw hreason
      exact ⟨_, hfails (.roleParams hrun) n⟩

/-! ## A role whose selected file cannot be rendered -/

/-- The texts of the parameters of an action. -/
def written? (raw : Fields) (action : String) : Option (List (String × Option String)) :=
  match raw.get? action with
  | some (.object params) => some (params.map fun (key, value) => (key, value.string?))
  | _ => none

theorem of_written {raw : Fields} {texts : List (String × Option String)}
    (h : written? raw action = some texts) :
    ∃ params, raw.get? action = some (.object params) ∧
      params.map (fun entry => (entry.1, entry.2.string?)) = texts := by
  unfold written? at h
  split at h
  · rename_i params hraw
    cases h; exact ⟨params, hraw, rfl⟩
  · cases h

/-- The name of the selected file, in which a reference is not closed. -/
def openText : String := "\x7b\x7b bad"

/-- Over no variables can it be rendered. -/
theorem open_fails (vars : Variables) :
    ∃ err, (Templater.ofMode false).evaluate openText vars = .error err := by
  have htemplate : Template.isTemplate openText = true := by decide +kernel
  have hconvert : (Template.convert openText).toOption = none := by decide +kernel
  show ∃ err, Template.evaluate false openText vars = .error err
  rw [Template.evaluate, if_pos htemplate]
  cases h : Template.convert openText with
  | error err => exact ⟨err, rfl⟩
  | ok converted => rw [h] at hconvert; cases hconvert

/-- What the third directive of the site declares. -/
theorem select_written : ∃ params,
    (selectLoad.2.graph.task ⟨2⟩).raw.get? "include_role" = some (.object params) ∧
      params.map (fun entry => (entry.1, entry.2.string?)) =
        [("name", some "web"), ("tasks_from", some openText)] := by
  have h : written? (selectLoad.2.graph.task ⟨2⟩).raw "include_role" =
      some [("name", some "web"), ("tasks_from", some openText)] := by decide +kernel
  exact of_written h

/-- The file that it selects cannot be rendered. -/
theorem select_unrendered
    (h : params.map (fun entry => (entry.1, entry.2.string?)) =
      [("name", some "web"), ("tasks_from", some openText)])
    (vars : Variables) : Unrendered (.ofMode false) vars params "tasks_from" where
  declared := by
    have hmem : ("tasks_from", some openText) ∈ params.map fun entry =>
      (entry.1, entry.2.string?) := by
      rw [h]; simp
    obtain ⟨⟨k, value⟩, hvalue, heq⟩ := List.mem_map.1 hmem
    obtain ⟨rfl, -⟩ := Prod.mk.inj heq
    exact ⟨value, hvalue⟩
  fails value hvalue := by
    have hmem :=
      List.mem_map_of_mem (f := fun entry : String × Json => (entry.1, entry.2.string?)) hvalue
    rw [h] at hmem
    have htext : value.string? = some openText := by simpa using hmem
    obtain ⟨err, herr⟩ := open_fails vars
    cases value with
    | string text =>
      cases htext
      exact ⟨err, by rw [renderValue, herr]; rfl⟩
    | _ => cases htext

/-- The variables of the third directive. -/
def selectVars : Except LoadError Variables × Store :=
  (taskVars selectSite ⟨2⟩).run.run selectLoad.2

theorem selectVars_ok : ∃ vars, selectVars = (.ok vars, selectVars.2) := by
  have h : selectVars.1.toOption.isSome := by decide +kernel
  obtain ⟨vars, hvars⟩ := Option.isSome_iff_exists.1 h
  exact ⟨vars, run_ok hvars⟩

/-- The third directive of the site is expanded as if it selected no file. -/
theorem select_without :
    ∃ vars params, (taskVars selectSite ⟨2⟩).run.run selectLoad.2 = (.ok vars, selectVars.2) ∧
    (selectLoad.2.graph.task ⟨2⟩).Directive .roleInclude "include_role" ∧
    (selectLoad.2.graph.task ⟨2⟩).raw.get? "include_role" = some (.object params) ∧
    Unrendered (.ofMode false) vars params "tasks_from" ∧
    ∀ n opened, (Question.task ⟨2⟩).reply selectSite (.ofMode false) n opened selectLoad.2 =
      (Question.task ⟨2⟩).reply selectSite (.ofMode false) n opened
        (selectLoad.2.without ⟨2⟩ "include_role" "tasks_from") := by
  obtain ⟨vars, hvars⟩ := selectVars_ok
  obtain ⟨params, hraw, htexts⟩ := select_written
  obtain ⟨hhas, hd⟩ := select_directive (i := 2) (by decide)
  have hun := select_unrendered htexts vars
  exact ⟨vars, params, hvars, hd, hraw, hun,
    ((unrendered_parameter reachable_select selectSite hhas hd hvars (.ofMode false)).2 params
      _ hraw hun).1⟩

/-- **A role whose selected file cannot be rendered gives its main tasks**, where the directive does
not fail. -/
theorem unrendered_selection :
    Reachable (· = selectSite) selectLoad.2 ∧ selectLoad.2.graph.HasTask ⟨2⟩ ∧
    (selectLoad.2.graph.task ⟨2⟩).Directive .roleInclude "include_role" ∧
    ∃ vars params, (taskVars selectSite ⟨2⟩).run.run selectLoad.2 = (.ok vars, selectVars.2) ∧
      (selectLoad.2.graph.task ⟨2⟩).raw.get? "include_role" = some (.object params) ∧
      Unrendered (.ofMode false) vars params "tasks_from" ∧
      ∃ leaves, (Question.task ⟨2⟩).reply selectSite (.ofMode false) 10 [] selectLoad.2 =
        .ok (.leaves leaves) ∧
        leaves.map (·.name) = [some "main"] := by
  obtain ⟨vars, hvars⟩ := selectVars_ok
  obtain ⟨params, hraw, htexts⟩ := select_written
  obtain ⟨hhas, hd⟩ := select_directive (i := 2) (by decide)
  have hnamed : named? ((Question.task ⟨2⟩).reply selectSite (.ofMode false) 10 [] selectLoad.2) =
      some [some "main"] := by decide +kernel
  exact ⟨reachable_select, hhas, hd, vars, params, hvars, hraw, select_unrendered htexts vars,
    of_named hnamed⟩

end Runlist

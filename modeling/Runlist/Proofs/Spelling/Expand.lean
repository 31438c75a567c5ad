import Runlist.Proofs.Expand.Abreast
import Runlist.Proofs.Spelling.Load

/-!
# Expansions of entities that are alike

Whatever is expanded in one of two states that are alike, the like of it is expanded in the other,
to tasks with the same handles. How a directive is spelled has no part in what it stands for.

* `ExpandError.Alike`, `Expansion.Alike`: failures and states of expansion that are alike.
* `Expand.Alike`: two steps of expansion that end alike.
* `Site.Alike.includeParams`: **the spellings of a directive have the same parameters**, or all of
  them have none.
* `Site.Alike.abreast`: what an expansion does to a state is done alike in both of them.
* `Site.Alike.expandTask`, `Site.Alike.expandPlaybook` and the like: **entities that are alike are
  expanded alike.**
-/

namespace Runlist

/-- Two names of a target: the same one, or two keys of a directive. -/
def SameTarget (target target' : String) : Prop :=
  target' = target ∨ ∃ i : Inclusion, target ∈ i.keys ∧ target' ∈ i.keys

theorem Spellings.sameTarget {i : Inclusion} {raw raw' : Fields} {action action' : String}
    (h : Spellings i raw raw' (some action) (some action')) : SameTarget action action' := by
  cases h with
  | same => exact .inl rfl
  | respelled hkey hkey' => exact .inr ⟨i, hkey, hkey'⟩

/-- **Two failures that are alike**: they have the same cause and the same chain of origins, and
name the same target, except that a directive is named by its own key. -/
inductive ExpandError.Alike (lines : LineRange → LineRange → Prop) :
    ExpandError → ExpandError → Prop
  | load {e e' : LoadError} : e.Alike e' → ExpandError.Alike lines (.load e) (.load e')
  | includeFailed {chain chain' : List Origin} {target target' : String}
      {source source' : ExpandError} :
      List.Forall₂ (Origin.Alike lines) chain chain' → SameTarget target target' →
      source.Alike lines source' →
      ExpandError.Alike lines (.includeFailed chain target source)
        (.includeFailed chain' target' source')
  | cyclicInclude (chain : List String) :
      ExpandError.Alike lines (.cyclicInclude chain) (.cyclicInclude chain)
  | invalidParams {action action' : String} {reason reason' : ParamsError} :
      SameTarget action action' →
      ExpandError.Alike lines (.invalidParams action reason) (.invalidParams action' reason')
  | tooDeep : ExpandError.Alike lines .tooDeep .tooDeep

/-- Two expansions that are alike. -/
structure Expansion.Alike (lines : LineRange → LineRange → Prop) (e e' : Expansion) : Prop where
  store : e.store.Alike lines e'.store
  opened : e'.opened = e.opened

/-- **Two steps of expansion end alike.** -/
abbrev Expand.Alike (lines : LineRange → LineRange → Prop) {α β : Type} (Q : α → β → Prop)
    (x : Expand α) (y : Expand β) : Prop :=
  Twin (Expansion.Alike lines) (ExpandError.Alike lines) Q x y

variable {lines : LineRange → LineRange → Prop}

/-! ## Rules -/

section Rules

variable {α β : Type} {Q : α → β → Prop} {e e' : Expansion}

namespace Twin

theorem load {x : Load α} {y : Load β} (h : Load.Alike lines Q x y) :
    Expand.Alike lines Q (Expand.load x) (Expand.load y) := by
  intro e e' he
  unfold TwinAt
  rw [run_load, run_load]
  obtain ⟨hresult, hstore⟩ := h _ _ he.store
  exact ⟨hresult.mapError fun _ _ h => .load h, hstore, he.opened⟩

theorem expandGraph : Expand.Alike lines (Graph.Alike lines) Expand.graph Expand.graph :=
  fun _ _ he => ⟨.ok he.store.graph, he⟩

theorem failed {o : OriginId} {target target' : String} {err err' : ExpandError}
    (htarget : SameTarget target target') (h : err.Alike lines err') :
    Expand.Alike lines Q (Expand.failed o target err : Expand α)
      (Expand.failed o target' err' : Expand β) := by
  have hchain : ∀ {err err' : ExpandError}, err.Alike lines err' → Expand.Alike lines Q
      (do MonadExcept.throw (.includeFailed ((← Expand.graph).provenance o) target err) : Expand α)
      (do
        MonadExcept.throw
          (.includeFailed ((← Expand.graph).provenance o) target' err') : Expand β) :=
    fun h => Twin.expandGraph.bind fun g g' hg =>
      .throw (.includeFailed (hg.provenance o) htarget h)
  cases h with
  | load he => exact hchain (.load he)
  | includeFailed hchain' htarget' hsource => exact .throw (.includeFailed hchain' htarget' hsource)
  | cyclicInclude chain => exact .throw (.cyclicInclude chain)
  | invalidParams haction => exact hchain (.invalidParams haction)
  | tooDeep => exact hchain .tooDeep

end Twin

end Rules

/-! ## Parameters -/

/-- The value of a directive, rendered over the variables of its task. -/
def renderWritten (t : Templater) (textKey action : String) (vars : Variables) : Json → Expand Json
  | .string text =>
    match t.evaluate text vars with
    | .ok rendered => return .object [(textKey, .string rendered)]
    | .error e => throw (.invalidParams action (.unrendered text e))
  | .object params => do return .object (← Expand.load (renderParams t vars action params))
  | _ => throw (.invalidParams action .notParams)

/-- The parameters in a value. -/
def readParams {α : Type} (read : Json → Except ShapeError α) (action : String)
    (value : Json) : Expand α :=
  match read value with
  | .ok params => return params
  | .error e => throw (.invalidParams action (.shape e))

section Read

variable {α : Type} {site : Site} {t : Templater} {read : Json → Except ShapeError α}
  {textKey action : String}
  {x : TaskId} {e : Expansion} {value : Json}

theorem run_directiveValue : (directiveValue site t textKey x action).run.run e =
    (match (e.store.graph.task x).raw.get? action with
      | some (.string text) => do
        let vars ← Expand.load (taskVars site x)
        match t.evaluate text vars with
        | .ok rendered => return .object [(textKey, .string rendered)]
        | .error e => throw (.invalidParams action (.unrendered text e))
      | some (.object _) => do
        match ← Expand.load (renderModule site t x action) with
        | some m => return m.toJson
        | none => return .object []
      | _ => throw (.invalidParams action .notParams) : Expand Json).run.run e := rfl

/-- **The parameters of a directive that is a text or a mapping** are those in its value,
rendered. -/
theorem run_includeParams (hraw : (e.store.graph.task x).raw.get? action = some value)
    (hvalue : (∃ text, value = .string text) ∨ ∃ params, value = .object params) :
    (includeParams site t read textKey x action).run.run e =
      (Expand.load (taskVars site x) >>= fun vars =>
      renderWritten t textKey action vars value >>= readParams read action).run.run e := by
  have hrendered : (directiveValue site t textKey x action).run.run e =
      (Expand.load (taskVars site x) >>= fun vars =>
        renderWritten t textKey action vars value).run.run e := by
    rw [run_directiveValue, hraw]
    rcases hvalue with ⟨text, rfl⟩ | ⟨params, rfl⟩
    · rfl
    · have hmodule : (renderModule site t x action).run.run e.store = (do
          let vars ← taskVars site x
          let rendered ← renderParams t vars action params
          return some ⟨rendered⟩ : Load (Option Module)).run.run e.store := by
        have hgraph : Load.graph.run.run e.store = (.ok e.store.graph, e.store) := rfl
        unfold renderModule
        rw [run_bind, hgraph]
        dsimp only
        rw [hraw]
      dsimp only
      unfold renderWritten
      rw [run_bind, run_load, hmodule, run_bind, run_bind, run_load]
      rcases (taskVars site x).run.run e.store with ⟨_ | vars, s⟩
      · rfl
      · dsimp only [Except.mapError]
        rw [run_bind, run_bind, run_load]
        rcases (renderParams t vars action params).run.run s with ⟨_ | _, _⟩ <;> rfl
  show (directiveValue site t textKey x action >>= readParams read action).run.run e = _
  rw [← bind_assoc, run_bind, run_bind, hrendered]

/-- Any other value has no parameters. -/
theorem run_includeParams_of_not
    (hraw : ∀ value, (e.store.graph.task x).raw.get? action = some value →
      ¬ ((∃ text, value = .string text) ∨ ∃ params, value = .object params)) :
    (includeParams site t read textKey x action).run.run e =
      (.error (.invalidParams action .notParams), e) := by
  show (directiveValue site t textKey x action >>= readParams read action).run.run e = _
  rw [run_bind, run_directiveValue]
  cases hget : (e.store.graph.task x).raw.get? action with
  | none => rfl
  | some value =>
    have hnot := hraw value hget
    cases value with
    | string text => exact absurd (.inl ⟨text, rfl⟩) hnot
    | object params => exact absurd (.inr ⟨params, rfl⟩) hnot
    | _ => rfl

end Read

section Written

variable {α : Type} {t : Templater} {read : Json → Except ShapeError α}
  {parameter text action : String}
  {vars : Variables} {value : Json}

theorem WritesText.text_or_mapping (h : WritesText parameter text value) :
    (∃ text, value = .string text) ∨ ∃ params, value = .object params := by
  cases h with
  | free => exact .inl ⟨_, rfl⟩
  | mapping => exact .inr ⟨_, rfl⟩

/-- A text that can be rendered is the parameter, however it is written. -/
theorem WritesText.rendered (h : WritesText parameter text value) {rendered : String}
    (ht : t.evaluate text vars = .ok rendered) (e : Expansion) :
    (renderWritten t parameter action vars value).run.run e =
      (.ok (.object [(parameter, .string rendered)]), e) := by
  cases h with
  | free => unfold renderWritten; dsimp only; rw [ht]; rfl
  | mapping =>
    have hvalue : renderValue t vars (.string text) = .ok (.string rendered) := by
      rw [renderValue, ht]; rfl
    have hparams : renderParams t vars action [(parameter, .string text)] =
        (do return (parameter, .string rendered) :: (← renderParams t vars action [])) := by
      conv_lhs => unfold renderParams
      rw [hvalue]
    unfold renderWritten
    dsimp only
    rw [hparams]
    rfl

/-- **One that cannot be rendered leaves no parameters**, however it is written. -/
theorem WritesText.unrendered (h : WritesText parameter text value) {err : TemplateError}
    (ht : t.evaluate text vars = .error err) (hmissing : ∃ err, read (.object []) = .error err)
    (e : Expansion) :
    ∃ reason notices, (renderWritten t parameter action vars value >>=
      readParams read action).run.run e =
      (.error (.invalidParams action reason), { e with store := { e.store with notices } }) := by
  obtain ⟨shape, hshape⟩ := hmissing
  cases h with
  | free =>
    exact ⟨.unrendered text err, e.store.notices, by unfold renderWritten; dsimp only; rw [ht]; rfl⟩
  | mapping =>
    have hvalue : renderValue t vars (.string text) = .error err := by rw [renderValue, ht]; rfl
    have hparams : renderParams t vars action [(parameter, .string text)] =
        (do Load.note (.droppedParameter parameter action err); renderParams t vars action []) := by
      conv_lhs => unfold renderParams
      rw [hvalue]
    refine ⟨.shape shape, e.store.notices ++ [.droppedParameter parameter action err], ?_⟩
    unfold renderWritten readParams
    dsimp only
    rw [hparams]
    show (match read (.object []) with
      | .ok params => pure params
      | .error e => throw (.invalidParams action (.shape e)) : Expand α).run.run _ = _
    rw [hshape]
    rfl

/-- **Parameters that are written in two ways are read alike.** -/
theorem WritesText.read_alike {value' : Json} {action' : String}
    (h : WritesText parameter text value) (h' : WritesText parameter text value')
    (haction : SameTarget action action') (hmissing : ∃ err, read (.object []) = .error err)
    (vars : Variables) :
    Expand.Alike lines Eq (renderWritten t parameter action vars value >>= readParams read action)
      (renderWritten t parameter action' vars value' >>= readParams read action') := by
  intro e e' he
  cases ht : t.evaluate text vars with
  | ok rendered =>
    unfold TwinAt
    rw [run_bind, run_bind, h.rendered ht, h'.rendered ht]
    dsimp only
    unfold readParams
    cases read (.object [(parameter, .string rendered)]) with
    | ok params => exact ⟨.ok rfl, he⟩
    | error shape => exact ⟨.error (.invalidParams haction), he⟩
  | error err =>
    obtain ⟨_, _, hrun⟩ := h.unrendered ht hmissing e
    obtain ⟨_, _, hrun'⟩ := h'.unrendered ht hmissing e'
    unfold TwinAt
    rw [hrun, hrun']
    exact ⟨.error (.invalidParams haction), ⟨he.store.graph, he.store.roleDirs⟩, he.opened⟩

theorem renderWritten_alike (vars : Variables) (value : Json) :
    Expand.Alike lines Eq (renderWritten t parameter action vars value)
      (renderWritten t parameter action vars value) := by
  unfold renderWritten
  split
  · split
    · exact .pure rfl
    · exact .throw (.invalidParams (.inl rfl))
  · exact (Twin.load (renderParams_alike t vars action _)).next fun _ => .pure rfl
  · exact .throw (.invalidParams (.inl rfl))

theorem readParams_alike (value : Json) :
    Expand.Alike lines Eq (readParams read action value) (readParams read action value) := by
  unfold readParams
  cases read value with
  | ok params => exact .pure rfl
  | error shape => exact .throw (.invalidParams (.inl rfl))

end Written

theorem TaskInclude.ofJson_empty : ∃ err, TaskInclude.ofJson (.object []) = .error err := ⟨_, rfl⟩

theorem RoleInclude.ofJson_empty : ∃ err, RoleInclude.ofJson (.object []) = .error err := ⟨_, rfl⟩

/-- Graphs that are alike look alike to an expansion. -/
theorem Graph.Alike.looksLike {g g' : Graph} (h : g.Alike lines g') : g.LooksLike g' where
  block := h.task_block
  origin := h.task_origin
  taskRole := h.task_role
  play := h.task_play
  path := h.taskPath
  taskPlay := h.taskPlay
  role := h.role
  playOrigin p := by rw [(h.play p).same]
  playTasks p := by rw [(h.play p).same]; rfl
  playRoles := h.play_roles
  imports p := (h.play p).imports

namespace Site.Alike

variable {site site' : Site} (h : site.Alike lines site')
include h

variable (hlines : ∀ l, lines l l) {t : Templater} {e e' : Expansion} {x : TaskId}
  {action action' : String}
include hlines

/-- **The spellings of a directive have the same parameters**, or all of them have none. -/
theorem includeParams {α : Type} {i : Inclusion} {read : Json → Except ShapeError α}
    (hmissing : ∃ err, read (.object []) = .error err) (he : e.Alike lines e')
    (hspell : Spellings i (e.store.graph.task x).raw (e'.store.graph.task x).raw (some action)
      (some action')) :
    TwinAt (Expansion.Alike lines) (ExpandError.Alike lines) Eq
      (includeParams site t read i.parameter x action)
      (includeParams site' t read i.parameter x action') e e' := by
  have hvars := Twin.load (h.taskVars hlines x)
  have haction := hspell.sameTarget
  cases hspell with
  | same hkey hraw =>
    by_cases hvalue : ∃ value, (e.store.graph.task x).raw.get? action = some value ∧
        ((∃ text, value = .string text) ∨ ∃ params, value = .object params)
    · obtain ⟨value, hget, hvalue⟩ := hvalue
      unfold TwinAt
      rw [run_includeParams hget hvalue, run_includeParams (hraw.trans hget) hvalue]
      exact hvars.next (fun vars => (renderWritten_alike vars value).next readParams_alike) e e' he
    · have hnot : ∀ value, (e.store.graph.task x).raw.get? action = some value →
          ¬ ((∃ text, value = .string text) ∨ ∃ params, value = .object params) :=
        fun value hget h => hvalue ⟨value, hget, h⟩
      unfold TwinAt
      rw [run_includeParams_of_not hnot, run_includeParams_of_not fun value hget =>
        hnot value (hraw ▸ hget)]
      exact ⟨.error (.invalidParams haction), he⟩
  | respelled hkey hkey' hraw hraw' hwrites hwrites' =>
    unfold TwinAt
    rw [run_includeParams hraw hwrites.text_or_mapping,
      run_includeParams hraw' hwrites'.text_or_mapping]
    exact hvars.next (fun vars => hwrites.read_alike hwrites' haction hmissing vars) e e' he

/-! ## Entities -/

/-- **What an expansion does to a state** is done alike in both sites. -/
theorem abreast : Abreast site site' (Expansion.Alike lines) (ExpandError.Alike lines) where
  looks he := he.store.graph.looksLike
  opened he := he.opened
  reopen he _ := ⟨he.store, rfl⟩
  adopt he ids x := ⟨⟨he.store.graph.adopt ids x, he.store.roleDirs⟩, he.opened⟩
  key target := h.key target
  tooDeep := .tooDeep
  cyclic chain := .cyclicInclude chain
  failed herr _ _ := .failed (.inl rfl) herr
  path r := .load (.ofExcept (.refl .same (fun _ => rfl) r))
  tasks _ _ _ _ := .load (h.loadTasksIn _ _ _ _)
  role _ _ _ _ := .load (h.loadRoleWith hlines _ _ _ _)
  direct r := .load (h.directDependencies hlines r)

/-- **A task is expanded in one way**, however its directive is spelled. -/
theorem matched (he : e.Alike lines e') (x : TaskId) :
    Abreast.Matches site site' (Expansion.Alike lines) (ExpandError.Alike lines) t x e e' := by
  have hg := he.store.graph
  cases hb : (e.store.graph.task x).isBlock with
  | true => exact .block hb he
  | false =>
    have hblock := Task.isBlock_eq_false.1 hb
    have hblock' := (hg.task_block x).trans hblock
    have hraw : (e.store.graph.task x).raw.Alike (e'.store.graph.task x).raw :=
      ((hg.task x).raw.resolve_left id).resolve_left fun hne => hne hblock
    -- each directive is spelled in both tasks or in neither
    have htasks : Spellings .tasks _ _ (e.store.graph.task x).taskInclude?
        (e'.store.graph.task x).taskInclude? := hraw.spellings .tasks
    have hroles : Spellings .role _ _ (e.store.graph.task x).roleInclude?
        (e'.store.graph.task x).roleInclude? := hraw.spellings .role
    cases ha : (e.store.graph.task x).taskInclude? <;>
      cases ha' : (e'.store.graph.task x).taskInclude? <;> rw [ha, ha'] at htasks
    case none.some | some.none => cases htasks
    case some.some =>
      have hparams := h.includeParams hlines (t := t) TaskInclude.ofJson_empty he htasks
      exact .file (.file hblock ha) (.file hblock' ha')
        ⟨hparams, fun _ _ herr => .failed htasks.sameTarget herr⟩
    case none.none =>
      cases hr : (e.store.graph.task x).roleInclude? <;>
        cases hr' : (e'.store.graph.task x).roleInclude? <;> rw [hr, hr'] at hroles
      case none.some | some.none => cases hroles
      case some.some =>
        have hparams := h.includeParams hlines (t := t) RoleInclude.ofJson_empty he hroles
        exact .role (.role hblock ha hr) (.role hblock' ha' hr')
          ⟨hparams, fun _ _ herr => .failed hroles.sameTarget herr⟩
      case none.none =>
        exact .leaf (Task.leaf_of_none hblock ha hr) (Task.leaf_of_none hblock' ha' hr') he

variable (n : Nat)

/-- **Tasks that are alike are expanded alike.** -/
theorem expandTask (x : TaskId) :
    Expand.Alike lines Eq (expandTask site t n x) (expandTask site' t n x) :=
  ((h.abreast hlines).tasks_roles (h.matched hlines) n).1 x

/-- **So are roles.** -/
theorem expandRoleOn (r : RoleId) (path : List String) :
    Expand.Alike lines Eq (expandRoleOn site t n r path) (expandRoleOn site' t n r path) :=
  ((h.abreast hlines).tasks_roles (h.matched hlines) n).2 r path

/-- **So are plays.** -/
theorem expandPlay (p : PlayId) :
    Expand.Alike lines Eq (expandPlay site t n p) (expandPlay site' t n p) :=
  ((h.abreast hlines).plays_playbooks (h.matched hlines) h.root
    (fun _ _ => .load (h.loadPlaybook hlines _ _)) n).1 p

/-- **And playbooks.** -/
theorem expandPlaybook (playbook : Playbook) :
    Expand.Alike lines Eq (expandPlaybook site t n playbook) (expandPlaybook site' t n playbook) :=
  ((h.abreast hlines).plays_playbooks (h.matched hlines) h.root
    (fun _ _ => .load (h.loadPlaybook hlines _ _)) n).2
    playbook

end Site.Alike

end Runlist

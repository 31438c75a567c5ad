import Runlist.Proofs.Permanence
import Runlist.Proofs.Unrendered

/-!
# The rendered parameters of an action

A value is rendered string by string: it keeps its form, and it cannot be rendered if one of its
strings cannot. So a parameter of an action is rendered whole, or dropped with a notice.

* `Json.strings`, `Json.mapStrings`: the strings in a value, and the value with other strings.
* `renderValue_eq`: **a value is rendered string by string**, and fails as the first string that
  fails.
* `renderParams_run`: the parameters that are kept, and a notice for each of the others.
* `module_rendered`: **the rendered parameters of an action**, in every state that is reached.
-/

namespace Runlist

/-! ## Strings in values -/

namespace Json

mutual
/-- The strings in a value, at every depth; the keys of mappings are none. -/
def strings : Json → List String
  | .string s => [s]
  | .array items => stringsOfItems items
  | .object entries => stringsOfEntries entries
  | _ => []

/-- The strings in items. -/
def stringsOfItems : List Json → List String
  | [] => []
  | item :: items => item.strings ++ stringsOfItems items

/-- The strings in the values of entries. -/
def stringsOfEntries : List (String × Json) → List String
  | [] => []
  | (_, value) :: entries => value.strings ++ stringsOfEntries entries
end

mutual
/-- **The value with other strings**: lists, keys, numbers, booleans and nulls stay. -/
def mapStrings (f : String → String) : Json → Json
  | .string s => .string (f s)
  | .array items => .array (mapItems f items)
  | .object entries => .object (mapEntries f entries)
  | other => other

/-- Items with other strings. -/
def mapItems (f : String → String) : List Json → List Json
  | [] => []
  | item :: items => item.mapStrings f :: mapItems f items

/-- Entries with other strings in their values. -/
def mapEntries (f : String → String) : List (String × Json) → List (String × Json)
  | [] => []
  | (key, value) :: entries => (key, value.mapStrings f) :: mapEntries f entries
end

end Json

/-! ## Rendering -/

namespace Templater

variable {t : Templater} {vars : Variables}

/-- The text of a string that can be evaluated. -/
def text (t : Templater) (vars : Variables) (s : String) : String :=
  (t.evaluate s vars).toOption.getD s

/-- The failure with which a string is evaluated. -/
def fails? (t : Templater) (vars : Variables) (s : String) : Option TemplateError :=
  match t.evaluate s vars with
  | .ok _ => none
  | .error e => some e

/-- The first of the failures with which the strings in a value are evaluated. -/
def failure? (t : Templater) (vars : Variables) (value : Json) : Option TemplateError :=
  value.strings.findSome? (t.fails? vars)

/-- Every string in a value can be evaluated. -/
def evaluates (t : Templater) (vars : Variables) (value : Json) : Bool :=
  value.strings.all fun s => (t.evaluate s vars).isOk

/-- A value is without a failure if every string in it can be evaluated. -/
theorem isNone_failure? (value : Json) :
    (t.failure? vars value).isNone = t.evaluates vars value := by
  have hfails (s : String) : (t.fails? vars s).isNone = (t.evaluate s vars).isOk := by
    rw [fails?]
    cases t.evaluate s vars <;> rfl
  rw [failure?, evaluates]
  induction value.strings with
  | nil => rfl
  | cons s strings ih =>
    rw [List.findSome?_cons, List.all_cons, ← hfails, ← ih]
    cases t.fails? vars s <;> rfl

end Templater

section

variable (t : Templater) (vars : Variables)

mutual
/-- **A value is rendered string by string**, and fails as the first string that fails. -/
theorem renderValue_eq : ∀ value : Json, renderValue t vars value =
    (value.strings.findSome? (t.fails? vars)).elim (.ok (value.mapStrings (t.text vars))) .error
  | .string s => by
    rw [renderValue, Json.strings, Json.mapStrings, List.findSome?_singleton, Templater.fails?,
      Templater.text]
    cases t.evaluate s vars <;> rfl
  | .array items => by
    rw [renderValue, renderItems_eq items, Json.strings, Json.mapStrings]
    cases (Json.stringsOfItems items).findSome? (t.fails? vars) <;> rfl
  | .object entries => by
    rw [renderValue, renderEntries_eq entries, Json.strings, Json.mapStrings]
    cases (Json.stringsOfEntries entries).findSome? (t.fails? vars) <;> rfl
  | .null => rfl
  | .bool _ => rfl
  | .number _ => rfl

theorem renderItems_eq : ∀ items : List Json, renderItems t vars items =
    ((Json.stringsOfItems items).findSome? (t.fails? vars)).elim
      (.ok (Json.mapItems (t.text vars) items)) .error
  | [] => rfl
  | item :: items => by
    rw [renderItems, renderValue_eq item, renderItems_eq items, Json.stringsOfItems, Json.mapItems,
      List.findSome?_append]
    cases item.strings.findSome? (t.fails? vars) with
    | some e => rfl
    | none => cases (Json.stringsOfItems items).findSome? (t.fails? vars) <;> rfl

theorem renderEntries_eq : ∀ entries : List (String × Json), renderEntries t vars entries =
    ((Json.stringsOfEntries entries).findSome? (t.fails? vars)).elim
      (.ok (Json.mapEntries (t.text vars) entries)) .error
  | [] => rfl
  | (key, value) :: entries => by
    rw [renderEntries, renderValue_eq value, renderEntries_eq entries, Json.stringsOfEntries,
      Json.mapEntries, List.findSome?_append]
    cases value.strings.findSome? (t.fails? vars) with
    | some e => rfl
    | none => cases (Json.stringsOfEntries entries).findSome? (t.fails? vars) <;> rfl
end

/-- The parameters whose strings can all be evaluated, with their texts in place of the strings. -/
def keptParams (params : Fields) : Fields :=
  (params.filter fun param => t.evaluates vars param.2).map fun param =>
    (param.1, param.2.mapStrings (t.text vars))

/-- The notices of the other parameters. -/
def droppedParams (action : String) (params : Fields) : List Notice :=
  params.filterMap fun param => (t.failure? vars param.2).map (.droppedParameter param.1 action)

/-- **A parameter is rendered whole, or dropped with a notice.** -/
theorem renderParams_run (action : String) (params : Fields) (s : Store) :
    (renderParams t vars action params).run.run s =
    (.ok (keptParams t vars params),
      { s with notices := s.notices ++ droppedParams t vars action params }) := by
  induction params generalizing s with
  | nil =>
    rw [droppedParams, List.filterMap_nil, List.append_nil]
    rfl
  | cons param params ih =>
    obtain ⟨key, value⟩ := param
    rw [renderParams, renderValue_eq]
    have hfailure : value.strings.findSome? (t.fails? vars) = t.failure? vars value := rfl
    rw [hfailure]
    cases hvalue : t.failure? vars value with
    | none =>
      have hkept : keptParams t vars ((key, value) :: params) =
          (key, value.mapStrings (t.text vars)) :: keptParams t vars params := by
        rw [keptParams, List.filter_cons, ← Templater.isNone_failure?, hvalue]
        rfl
      have hdropped : droppedParams t vars action ((key, value) :: params) =
          droppedParams t vars action params := by
        rw [droppedParams, List.filterMap_cons, hvalue]
        rfl
      rw [Option.elim_none, hkept, hdropped]
      dsimp only
      rw [run_bind, ih]
      rfl
    | some e =>
      have hkept : keptParams t vars ((key, value) :: params) = keptParams t vars params := by
        rw [keptParams, List.filter_cons, ← Templater.isNone_failure?, hvalue]
        rfl
      have hdropped : droppedParams t vars action ((key, value) :: params) =
          .droppedParameter key action e :: droppedParams t vars action params := by
        rw [droppedParams, List.filterMap_cons, hvalue]
        rfl
      rw [Option.elim_some, hkept, hdropped]
      dsimp only
      have hnote : (Load.note (.droppedParameter key action e)).run.run s =
          (.ok (), { s with notices := s.notices ++ [.droppedParameter key action e] }) := rfl
      rw [run_bind, hnote]
      dsimp only
      rw [ih, List.append_assoc]
      rfl

end

variable {sites : Site → Prop} {s : Store} {x : TaskId}

/-- **The rendered parameters of an action**, in every state that is reached. An action that is no
mapping has none, and no variables are resolved for it. Otherwise the variables of the task are
resolved, or kept from before; if that fails so does the action, and else its parameters are
rendered over them, each of them whole. Those that cannot be rendered are noted, in the order of
their keys. The task keeps its mapping. -/
theorem module_rendered (h : Reachable sites s) (hx : s.graph.HasTask x) (site : Site)
    (t : Templater) (action : String) :
    ((∀ params, (s.graph.task x).raw.get? action ≠ some (.object params)) →
      (renderModule site t x action).run.run s = (.ok none, s)) ∧
    ∀ params, (s.graph.task x).raw.get? action = some (.object params) → Fields.Sorted params ∧
      (∀ e s', (taskVars site x).run.run s = (.error e, s') →
        (renderModule site t x action).run.run s = (.error e, s') ∧
        (s'.graph.task x).raw = (s.graph.task x).raw) ∧
      ∀ vars s', (taskVars site x).run.run s = (.ok vars, s') →
        (renderModule site t x action).run.run s = (.ok (some ⟨keptParams t vars params⟩),
          { s' with notices := s'.notices ++ droppedParams t vars action params }) ∧
        (s'.graph.task x).raw = (s.graph.task x).raw ∧ (s'.graph.task x).cachedVars = some vars ∧
        ∀ cached, (s.graph.task x).cachedVars = some cached → vars = cached ∧ s' = s := by
  have hs := h.sound
  have hgraph : Load.graph.run.run s = (.ok s.graph, s) := rfl
  have hkeeps {s' : Store} (hadvances : Advances site s s') :
      (s'.graph.task x).raw = (s.graph.task x).raw := by
    rw [(hadvances.grows.task x hx).same]
  refine ⟨fun hnone => ?_, fun params hraw => ?_⟩
  · refine run_eq_ok ?_
    unfold renderModule
    rw [ends_bind, ends_graph]
    split
    · exact absurd ‹_› (hnone _)
    · exact ⟨rfl, rfl⟩
  -- the variables are asked for once the mapping is there
  have hmodule : (renderModule site t x action).run.run s = (do
      let vars ← taskVars site x
      return some ⟨← renderParams t vars action params⟩ : Load (Option Module)).run.run s := by
    unfold renderModule
    rw [run_bind, hgraph]
    dsimp only
    rw [hraw]
  refine ⟨?_, fun e s' hrun => ⟨?_, hkeeps ((taskVars_ends hs hx).of_error hrun)⟩,
    fun vars s' hrun =>
      ⟨?_, hkeeps ((taskVars_ends hs hx).of_ok hrun).1, (taskVars_remembers hs hx).of_ok hrun, ?_⟩⟩
  · exact (ordered_get? (hs.tasks x hx).raw.2 hraw).1
  · rw [hmodule, run_bind, hrun]
  · rw [hmodule, run_bind, hrun]
    dsimp only
    rw [run_bind, renderParams_run]
    rfl
  · intro cached hcached
    rw [taskVars_of_cached hcached] at hrun
    cases hrun
    exact ⟨rfl, rfl⟩

/-- Parameters that are strings are known by their texts. -/
theorem of_texts {params : Fields} {texts : List (String × String)}
    (h : (params.map fun param => (param.1, param.2.string?)) = texts.map fun text =>
      (text.1, some text.2)) :
    params = texts.map fun text => (text.1, .string text.2) := by
  induction params generalizing texts with
  | nil =>
    obtain rfl := List.map_eq_nil_iff.1 h.symm
    rfl
  | cons param params ih =>
    obtain ⟨key, value⟩ := param
    cases texts with
    | nil => cases h
    | cons text texts =>
      obtain ⟨hparam, hparams⟩ := List.cons.inj h
      obtain ⟨rfl, hvalue⟩ := Prod.mk.inj hparam
      cases value with
      | string s =>
        obtain rfl := Option.some.inj hvalue
        rw [ih hparams]
        rfl
      | _ => cases hvalue

/-- Of the third directive of the site the name is rendered, and the file that it selects is
dropped. -/
theorem select_rendered :
    ∃ params vars, (selectLoad.2.graph.task ⟨2⟩).raw.get? "include_role" = some (.object params) ∧
    (renderModule selectSite (.ofMode false) ⟨2⟩ "include_role").run.run selectLoad.2 =
      (.ok (some ⟨keptParams (.ofMode false) vars params⟩),
        { selectVars.2 with
          notices := selectVars.2.notices ++
            droppedParams (.ofMode false) vars "include_role" params }) ∧
    keptParams (.ofMode false) vars params = [("name", .string "web")] ∧
    ∃ e, droppedParams (.ofMode false) vars "include_role" params =
      [.droppedParameter "tasks_from" "include_role" e] := by
  obtain ⟨vars, hvars⟩ := selectVars_ok
  obtain ⟨params, hraw, htexts⟩ := select_written
  obtain ⟨hhas, -⟩ := select_directive (i := 2) (by decide)
  have hmodule :=
    (module_rendered reachable_select hhas selectSite (.ofMode false) "include_role").2 params hraw
  have hrun := (hmodule.2.2 vars _ hvars).1
  obtain rfl : params = [("name", .string "web"), ("tasks_from", .string openText)] :=
    of_texts (show _ = [("name", "web"), ("tasks_from", openText)].map fun text =>
      (text.1, some text.2) from htexts)
  have hweb : (Templater.ofMode false).evaluate "web" vars = .ok "web" := by
    have hplain : Template.isTemplate "web" = false := by decide
    show Template.evaluate false "web" vars = .ok "web"
    rw [Template.evaluate, hplain]
    rfl
  obtain ⟨e, hopen⟩ := open_fails vars
  have hkept : (Templater.ofMode false).failure? vars (.string "web") = none := by
    rw [Templater.failure?, Json.strings, List.findSome?_singleton, Templater.fails?, hweb]
  have hdropped : (Templater.ofMode false).failure? vars (.string openText) = some e := by
    rw [Templater.failure?, Json.strings, List.findSome?_singleton, Templater.fails?, hopen]
  refine ⟨_, vars, hraw, hrun, ?_, e, ?_⟩
  · simp only [keptParams, ← Templater.isNone_failure?, List.filter_cons, hkept, hdropped,
      Option.isNone_none, Option.isNone_some, if_true, List.filter_nil, Bool.false_eq_true,
      if_false, List.map_cons, List.map_nil, Json.mapStrings, Templater.text, hweb]
    rfl
  · simp only [droppedParams, List.filterMap_cons, hkept, hdropped, Option.map_none,
      Option.map_some, List.filterMap_nil]

end Runlist

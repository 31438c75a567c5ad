import Runlist.Proofs.Reach
import Runlist.Proofs.Watch.Expand

/-!
# The targets that are open

The keys of the open targets are all that an expansion has to tell whether a target includes itself.
A key too many reports a cycle that is none, in this expansion or in the next, and a key too few
misses one.

* `Exact`: the keys are those of what is being expanded, behind those that were open at the start.
* `Stacked`: **a run leaves the keys as they were, and at every moment they are exact.**
* `watchExpandTask_stacked` and the like: so it is with every expansion, whether it succeeds or
  fails.
* `Call`: what may be asked of an expansion. `opened_exact`: what holds of all calls.
-/

namespace Runlist

variable {site : Site} {t : Templater} {base opened : List String} {inside : List Frame}
  {tape tape₁ tape₂ : Tape Expansion Moment}

/-- **The keys are exact**: those that were open at the start and behind them those of what is being
expanded, outermost first. No key is there twice, unless it was so at the start. -/
structure Exact (site : Site) (base opened : List String) (inside : List Frame) : Prop where
  eq : opened = base ++ inside.map (Frame.key site)
  nodup : base.Nodup → opened.Nodup

/-- The keys of a target that is not open yet. -/
theorem Exact.enter (h : Exact site base opened inside) {frame : Frame}
    (hnew : frame.key site ∉ opened) :
    Exact site base (opened ++ [frame.key site]) (inside ++ [frame]) where
  eq := by rw [h.eq, List.map_append, List.append_assoc]; rfl
  nodup hbase := by
    rw [← List.concat_eq_append]
    exact (h.nodup hbase).concat hnew

/-- **From one tape to another the keys stay**, and they are exact at every moment between the
two. -/
structure Stacked (site : Site) (base : List String)
    (tape tape' : Tape Expansion Moment) : Prop where
  opened : tape'.state.opened = tape.state.opened
  exact : ∃ seen, tape'.moments = tape.moments ++ seen ∧
    ∀ m ∈ seen, Exact site base m.opened m.inside

namespace Stacked

theorem refl (tape : Tape Expansion Moment) : Stacked site base tape tape :=
  ⟨rfl, [], (List.append_nil _).symm, fun _ hm => (List.not_mem_nil hm).elim⟩

theorem trans (h : Stacked site base tape tape₁) (h' : Stacked site base tape₁ tape₂) :
    Stacked site base tape tape₂ := by
  obtain ⟨seen, hseen, hexact⟩ := h.exact
  obtain ⟨more, hmore, hexact'⟩ := h'.exact
  refine ⟨h'.opened.trans h.opened, seen ++ more, by rw [hmore, hseen, List.append_assoc],
    fun m hm => ?_⟩
  rcases List.mem_append.1 hm with hm | hm
  · exact hexact m hm
  · exact hexact' m hm

end Stacked

/-- The step leaves the keys as they were, however it ends. -/
def Restores {α : Type} (site : Site) (base : List String) (inside : List Frame)
    (step : WatchExpand α) : Prop :=
  ∀ tape : Tape Expansion Moment, Exact site base tape.state.opened inside →
    Ends step tape (fun _ tape' => Stacked site base tape tape') fun _ tape' =>
      Stacked site base tape tape'

/-! ## One rule for each way to build a step -/

section Rules

variable {α β : Type}

theorem restores_pure (a : α) : Restores site base inside (pure a : WatchExpand α) :=
  fun tape _ => Stacked.refl tape

theorem restores_throw (e : ExpandError) : Restores site base inside (throw e : WatchExpand α) :=
  fun tape _ => Stacked.refl tape

theorem restores_bind {x : WatchExpand α} {f : α → WatchExpand β} (hx : Restores site base inside x)
    (hf : ∀ a, Restores site base inside (f a)) : Restores site base inside (x >>= f) := by
  intro tape hexact
  rw [ends_bind]
  refine (hx tape hexact).mono (fun a tape₁ h₁ => ?_) fun _ _ h => h
  exact (hf a tape₁ (by rw [h₁.opened]; exact hexact)).mono (fun _ _ h => h₁.trans h)
    fun _ _ h => h₁.trans h

theorem restores_concatEach {f : α → WatchExpand (List β)}
    (hf : ∀ a, Restores site base inside (f a)) (l : List α) :
    Restores site base inside (concatEach f l) := by
  induction l with
  | nil => exact restores_pure _
  | cons a l ih => exact restores_bind (hf a) fun _ => restores_bind ih fun _ => restores_pure _

/-- A step of loading has no part in the keys. -/
theorem restores_load (x : Watch α) : Restores site base inside (WatchExpand.load inside x) := by
  intro tape hexact
  rw [ends_watch_load]
  have hseen : ∀ s : Tape Store Look, Stacked site base tape ⟨{ tape.state with store := s.state },
      tape.moments ++ s.moments.map fun look => ⟨look, tape.state.opened, inside⟩⟩ := by
    refine fun s => ⟨rfl, _, rfl, fun m hm => ?_⟩
    obtain ⟨look, -, rfl⟩ := List.mem_map.1 hm
    exact hexact
  exact (Ends.run x _).mono (fun _ s _ => hseen s) fun _ s _ => hseen s

theorem restores_look (handles : Graph → List Handle) :
    Restores site base inside (WatchExpand.look inside handles) := restores_load _

theorem restores_attempt {x : WatchExpand α} (hx : Restores site base inside x) :
    Restores site base inside (WatchExpand.attempt x) := by
  intro tape hexact
  rw [ends_watch_attempt]
  exact hx tape hexact

theorem restores_failed (origin : OriginId) (target : String) (e : ExpandError) :
    Restores site base inside (WatchExpand.failed inside origin target e : WatchExpand α) := by
  cases e with
  | includeFailed | cyclicInclude => exact restores_throw _
  | load | invalidParams | tooDeep =>
    exact restores_bind (restores_look _) fun _ => restores_throw _

/-- **A target is closed again**, and what is below it is expanded inside it. -/
theorem restores_entered {frame : Frame} {step : List Frame → WatchExpand α}
    (h : Restores site base (inside ++ [frame]) (step (inside ++ [frame]))) :
    Restores site base inside (WatchExpand.entered site inside frame step) := by
  intro tape hexact
  unfold WatchExpand.entered Expand.enter
  simp only [ends_bind, ends_aside, ends_get]
  split
  · rw [ends_throw]; exact .refl tape
  · rename_i hnot
    have hinner := hexact.enter fun hopen => hnot (List.contains_iff_mem.2 hopen)
    simp only [ends_set, ends_watch_look, ends_watch_attempt]
    -- after the target has been closed, the keys are those that were open before it
    have hclosed : ∀ tape₁ : Tape Expansion Moment,
        Stacked site base ⟨{ tape.state with opened := tape.state.opened ++ [frame.key site] },
          tape.moments ++
          [⟨⟨tape.state.store.graph, []⟩, tape.state.opened ++ [frame.key site],
            inside ++ [frame]⟩]⟩ tape₁ →
        Stacked site base tape ⟨{ tape₁.state with opened := tape₁.state.opened.dropLast },
          tape₁.moments ++
          [⟨⟨tape₁.state.store.graph, []⟩, tape₁.state.opened.dropLast, inside⟩]⟩ := by
      intro tape₁ h₁
      have hback : tape₁.state.opened.dropLast = tape.state.opened := by
        rw [h₁.opened]; exact List.dropLast_concat
      obtain ⟨seen, hseen, hexact₁⟩ := h₁.exact
      refine ⟨hback, ⟨⟨tape.state.store.graph, []⟩, tape.state.opened ++ [frame.key site],
        inside ++ [frame]⟩ ::
          (seen ++ [⟨⟨tape₁.state.store.graph, []⟩, tape₁.state.opened.dropLast, inside⟩]),
        by rw [hseen]; simp, fun m hm => ?_⟩
      rcases List.mem_cons.1 hm with rfl | hm
      · exact hinner
      · rcases List.mem_append.1 hm with hm | hm
        · exact hexact₁ m hm
        · rw [List.mem_singleton.1 hm, hback]; exact hexact
    refine (h _ hinner).mono (fun _ tape₁ h₁ => ?_) fun _ tape₁ h₁ => ?_ <;>
      simp only [Expand.leave, ends_modify, ends_pure] <;> exact hclosed tape₁ h₁

end Rules

/-! ## Expansions -/

theorem watchFinish_stacked (id : TaskId) (origin : OriginId) (target : String)
    (result : Except ExpandError (List TaskId)) :
    Restores site base inside (watchFinish inside id origin target result) := by
  cases result with
  | error e => exact restores_failed _ _ _
  | ok tasks => exact restores_bind (restores_load _) fun _ => restores_pure _

theorem watchParams_stacked {α : Type} (read : Json → Except ShapeError α) (textKey : String)
    (id : TaskId) (action : String) :
    Restores site base inside (watchParams site t inside read textKey id action) := by
  refine restores_bind (restores_bind (restores_look _) fun g => ?_) fun value => ?_
  · split
    · refine restores_bind (restores_load _) fun vars => ?_
      split
      · exact restores_pure _
      · exact restores_throw _
    · refine restores_bind (restores_load _) fun m => ?_
      split
      · exact restores_pure _
      · exact restores_pure _
    · exact restores_throw _
  · split
    · exact restores_pure _
    · exact restores_throw _

theorem watchTaskInclude_stacked {expand : List Frame → TaskId → WatchExpand (List TaskId)}
    (h : ∀ inside id, Restores site base inside (expand inside id)) (id : TaskId)
    (action : String) :
    Restores site base inside (watchTaskInclude site t expand inside id action) := by
  refine restores_bind (restores_look _) fun g => ?_
  refine restores_bind (restores_attempt (watchParams_stacked _ _ _ _)) fun params => ?_
  split
  · exact restores_failed _ _ _
  · refine restores_bind (restores_entered ?_) fun result => watchFinish_stacked _ _ _ _
    exact restores_bind (restores_load _) fun tasks => restores_concatEach (h _) tasks

theorem watchRoleInclude_stacked {expand : List Frame → RoleId → WatchExpand (List TaskId)}
    (h : ∀ inside r, Restores site base inside (expand inside r)) (id : TaskId) (action : String) :
    Restores site base inside (watchRoleInclude site t expand inside id action) := by
  refine restores_bind (restores_look _) fun g => ?_
  refine restores_bind (restores_attempt (watchParams_stacked _ _ _ _)) fun params => ?_
  split
  · exact restores_failed _ _ _
  · refine restores_bind (restores_look _) fun g => ?_
    refine restores_bind (restores_entered ?_) fun result => watchFinish_stacked _ _ _ _
    exact restores_bind (restores_load _) fun r => h _ r

mutual
theorem watchExpandTask_stacked : ∀ (n : Nat) (inside : List Frame) (id : TaskId),
    Restores site base inside (watchExpandTask site t n inside id)
  | 0, _, _ => restores_throw _
  | n + 1, inside, id => by
    rw [watchExpandTask]
    refine restores_bind (restores_look _) fun g => ?_
    by_cases hb : (g.task id).isBlock
    · rw [if_pos hb]
      exact restores_concatEach (watchExpandTask_stacked n inside) _
    · rw [if_neg hb]
      cases (g.task id).taskInclude? with
      | some action => exact watchTaskInclude_stacked (watchExpandTask_stacked n) id action
      | none =>
        cases (g.task id).roleInclude? with
        | some action =>
          exact watchRoleInclude_stacked
            (fun inside r => watchExpandRoleOn_stacked n inside r []) id action
        | none => exact restores_pure _

theorem watchExpandRoleOn_stacked :
    ∀ (n : Nat) (inside : List Frame) (r : RoleId) (path : List String),
    Restores site base inside (watchExpandRoleOn site t n inside r path)
  | 0, _, _, _ => restores_throw _
  | n + 1, inside, r, path => by
    rw [watchExpandRoleOn]
    refine restores_bind (restores_look _) fun g => restores_bind (restores_load _) fun path => ?_
    refine restores_bind (restores_load _) fun direct => ?_
    refine restores_bind
      (restores_concatEach (fun d => watchExpandRoleOn_stacked n inside d path) _)
      fun below => restores_bind (restores_look _) fun g => ?_
    exact restores_bind (restores_concatEach (watchExpandTask_stacked n inside) _)
      fun own => restores_pure _
end

mutual
theorem watchExpandPlay_stacked : ∀ (n : Nat) (inside : List Frame) (p : PlayId),
    Restores site base inside (watchExpandPlay site t n inside p)
  | 0, _, _ => restores_throw _
  | n + 1, inside, p => by
    rw [watchExpandPlay]
    refine restores_bind (restores_look _) fun g => ?_
    simp only
    cases (g.play p).importTarget? with
    | some target =>
      refine restores_bind (restores_attempt (restores_bind (restores_load _) fun pb =>
        watchExpandPlaybook_stacked n inside pb)) fun result => ?_
      split
      · exact restores_pure _
      · exact restores_failed _ _ _
    | none =>
      refine restores_bind (restores_concatEach (watchExpandTask_stacked n inside) _)
        fun tasks => ?_
      exact restores_bind (restores_concatEach (fun r => watchExpandRoleOn_stacked n inside r []) _)
        fun roles => restores_pure _

theorem watchExpandPlaybook_stacked : ∀ (n : Nat) (inside : List Frame) (pb : Playbook),
    Restores site base inside (watchExpandPlaybook site t n inside pb)
  | 0, _, _ => restores_throw _
  | n + 1, inside, pb => by
    rw [watchExpandPlaybook]
    refine restores_bind (restores_entered (restores_concatEach (watchExpandPlay_stacked n _) _))
      fun result => ?_
    split
    · exact restores_pure _
    · exact restores_throw _
end

/-! ## Calls -/

/-- What may be expanded. -/
inductive Call where
  | task (x : TaskId)
  | tasks (xs : List TaskId)
  | role (r : RoleId)
  | play (p : PlayId)
  | playbook (pb : Playbook)

namespace Call

/-- The expansion of what is asked for. -/
def expand (site : Site) (t : Templater) (n : Nat) : Call → Expand (List TaskId)
  | task x => expandTask site t n x
  | tasks xs => concatEach (expandTask site t n) xs
  | role r => expandRole site t n r
  | play p => expandPlay site t n p
  | playbook pb => expandPlaybook site t n pb

/-- The same, watched. -/
def watch (site : Site) (t : Templater) (n : Nat) : Call → WatchExpand (List TaskId)
  | task x => watchExpandTask site t n [] x
  | tasks xs => concatEach (watchExpandTask site t n []) xs
  | role r => watchExpandRoleOn site t n [] r []
  | play p => watchExpandPlay site t n [] p
  | playbook pb => watchExpandPlaybook site t n [] pb

theorem mirrors_watch (n : Nat) (call : Call) :
    Mirrors (call.watch site t n) (call.expand site t n) := by
  cases call with
  | task x => exact mirrors_expandTask n [] x
  | tasks xs => exact mirrors_concatEach (mirrors_expandTask n []) xs
  | role r => exact mirrors_expandRoleOn n [] r []
  | play p => exact mirrors_expandPlay n [] p
  | playbook pb => exact mirrors_expandPlaybook n [] pb

theorem watch_stacked (n : Nat) (call : Call) : Restores site base [] (call.watch site t n) := by
  cases call with
  | task x => exact watchExpandTask_stacked n [] x
  | tasks xs => exact restores_concatEach (watchExpandTask_stacked n []) xs
  | role r => exact watchExpandRoleOn_stacked n [] r []
  | play p => exact watchExpandPlay_stacked n [] p
  | playbook pb => exact watchExpandPlaybook_stacked n [] pb

/-- A call leaves the keys as they were, and at every moment they are exact. -/
theorem stacked (site : Site) (t : Templater) (n : Nat) (call : Call) (e : Expansion) :
    Stacked site e.opened ⟨e, []⟩ ((call.watch site t n).run.run ⟨e, []⟩).2 := by
  have hexact : Exact site e.opened e.opened [] := ⟨(List.append_nil _).symm, id⟩
  exact (call.watch_stacked n ⟨e, []⟩ hexact).state (fun _ _ h => h) fun _ _ h => h

theorem opened_expand (site : Site) (t : Templater) (n : Nat) (call : Call) (e : Expansion) :
    ((call.expand site t n).run.run e).2.opened = e.opened := by
  rw [← (call.mirrors_watch n ⟨e, []⟩).2]
  exact (stacked site t n call e).opened

end Call

/-- **States of one expansion**, from which calls are made one after the other. Each of them may
succeed or fail, and the files, the templates and the bound may differ from call to call. -/
inductive Expansion.Later : Expansion → Expansion → Prop
  | refl (e : Expansion) : Expansion.Later e e
  | call {e e₁ : Expansion} (site : Site) (t : Templater) (n : Nat) (call : Call) :
      Expansion.Later e e₁ → Expansion.Later e ((call.expand site t n).run.run e₁).2

theorem Expansion.Later.opened_eq {e e₁ : Expansion} (h : e.Later e₁) : e₁.opened = e.opened := by
  induction h with
  | refl => rfl
  | call site t n call _ ih => rw [call.opened_expand, ih]

/-- **The keys of open targets are exact and always restored.** For every state and every call, on
success and on every failure: the keys after the call are those before it; the watched call is the
call; and at every moment of it the keys are those that were open before, and behind them those of
the includes and playbooks that are being expanded, outermost first, none of them twice. So no call
leaves anything open, and one that is made after others, which have succeeded or failed in whatever
way, ends as in an expansion that is new. -/
theorem opened_exact :
    (∀ (site : Site) (t : Templater) (n : Nat) (call : Call) (e : Expansion),
      ((call.expand site t n).run.run e).2.opened = e.opened ∧
      ((call.watch site t n).run.run ⟨e, []⟩).1 = ((call.expand site t n).run.run e).1 ∧
      ((call.watch site t n).run.run ⟨e, []⟩).2.state = ((call.expand site t n).run.run e).2 ∧
      ∀ m ∈ ((call.watch site t n).run.run ⟨e, []⟩).2.moments,
        m.opened = e.opened ++ m.inside.map (Frame.key site) ∧ (e.opened.Nodup → m.opened.Nodup)) ∧
    ∀ (s : Store) (e : Expansion), Expansion.Later ⟨s, []⟩ e → e.opened = [] ∧
      ∀ (site : Site) (t : Templater) (n : Nat) (call : Call),
        (call.expand site t n).run.run e = (call.expand site t n).run.run ⟨e.store, []⟩ := by
  refine ⟨fun site t n call e => ⟨call.opened_expand site t n e, (call.mirrors_watch n ⟨e, []⟩).1,
    (call.mirrors_watch n ⟨e, []⟩).2, fun m hm => ?_⟩, fun s e h => ?_⟩
  · obtain ⟨seen, hseen, hexact⟩ := (Call.stacked site t n call e).exact
    rw [hseen, List.nil_append] at hm
    exact ⟨(hexact m hm).eq, (hexact m hm).nodup⟩
  · have hopened : e.opened = [] := h.opened_eq
    refine ⟨hopened, fun site t n call => ?_⟩
    rw [← hopened]

/-- The expansion of the file that includes itself, watched. -/
def loopWatch : Except ExpandError (List TaskId) × Tape Expansion Moment :=
  ((Call.task ⟨0⟩).watch loopSite (.ofMode false) 5).run.run ⟨⟨loopLoad.2, []⟩, []⟩

/-- The file is open while it is expanded, until the cycle is found. Then nothing is open any
more. -/
theorem loop_opened_exact :
    loopWatch.1.toOption = none ∧ ["/loop.yml"] ∈ loopWatch.2.moments.map Moment.opened ∧
    (∀ m ∈ loopWatch.2.moments, m.opened = m.inside.map (Frame.key loopSite) ∧ m.opened.Nodup) ∧
    loopWatch.2.state.opened = [] ∧ ∀ call : Call,
      (call.expand loopSite (.ofMode false) 5).run.run loopWatch.2.state =
        (call.expand loopSite (.ofMode false) 5).run.run ⟨loopWatch.2.state.store, []⟩ := by
  have hrun : loopWatch.1.toOption = none ∧
      ["/loop.yml"] ∈ loopWatch.2.moments.map Moment.opened := by
    decide +kernel
  obtain ⟨hcall, hlater⟩ := opened_exact
  obtain ⟨-, -, hstate, hmoments⟩ := hcall loopSite (.ofMode false) 5 (.task ⟨0⟩) ⟨loopLoad.2, []⟩
  have hends : loopWatch.2.state =
      (((Call.task ⟨0⟩).expand loopSite (.ofMode false) 5).run.run ⟨loopLoad.2, []⟩).2 := by
    rw [loopWatch]; exact hstate
  have hafter : Expansion.Later ⟨loopLoad.2, []⟩ loopWatch.2.state := by
    rw [hends]
    exact .call loopSite (.ofMode false) 5 (.task ⟨0⟩) (.refl ⟨loopLoad.2, []⟩)
  obtain ⟨hopened, hnew⟩ := hlater loopLoad.2 loopWatch.2.state hafter
  refine ⟨hrun.1, hrun.2, fun m hm => ?_, hopened, fun call => hnew loopSite (.ofMode false) 5 call⟩
  rw [loopWatch] at hm
  obtain ⟨heq, hnodup⟩ := hmoments m hm
  exact ⟨heq.trans (List.nil_append _), hnodup .nil⟩

end Runlist

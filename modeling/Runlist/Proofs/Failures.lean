import Runlist.Proofs.Expand.Fault
import Runlist.Proofs.Expand.Leaves
import Runlist.Proofs.Outcome.Settled

/-!
# What is reported of a failure

A failure is a cycle, or that of the innermost directive that is open, or a failure to load
something while no directive is open.

* `Graph.Directs`: a directive of a graph, by its origin.
* `Fault.Sane`: the directives that are open at a fault are directives of the graph, and its cause
  is none that names a directive.
* `faultTask_blames` and the like: **every fault of an expansion is sane.**
* `Fault.Reports`: the four failures that there are. `failure_reports`: **there are no others.**
-/

namespace Runlist

variable {site : Site} {t : Templater} {e : Expansion} {α β : Type}

/-- **The origin of a directive**: of a task that includes something, or of a play that imports a
playbook. -/
inductive Graph.Directs (g : Graph) : OriginId → Prop
  | task {x : TaskId} : g.HasTask x →
      (g.task x).kind = .taskInclude ∨ (g.task x).kind = .roleInclude →
      Directs g (g.task x).origin
  | play {p : PlayId} : g.HasPlay p → (g.play p).importTarget?.isSome → Directs g (g.play p).origin

theorem Graph.Directs.stays {g g' : Graph} {o : OriginId} (h : g.Stays g') (ho : g.Directs o) :
    g'.Directs o := by
  cases ho with
  | @task x hx hkind =>
    have hsame := (h.task x hx).same
    have horigin : (g'.task x).origin = (g.task x).origin := by rw [hsame]
    have hkeeps : (g'.task x).kind = (g.task x).kind := by rw [hsame]; rfl
    rw [← horigin]
    exact .task (h.keeps.hasTask hx) (by rw [hkeeps]; exact hkind)
  | @play p hp htarget =>
    rw [← h.play p hp] at htarget ⊢
    exact .play (h.keeps.hasPlay hp) htarget

/-- **A fault is sane**: the directives that are open are directives of the graph, and its cause
names no directive. Parameters are wrong only while a directive is open. -/
structure Fault.Sane (g : Graph) (f : Fault) : Prop where
  within : ∀ opening ∈ f.within, g.Directs opening.origin
  cause : match f.cause with
    | .includeFailed .. => False
    | .invalidParams .. => f.within ≠ []
    | _ => True

/-- The fault of a step in which no directive is opened, and which fails for no parameters. -/
theorem Fault.Sane.load (g : Graph) (err : LoadError) : Fault.Sane g ⟨[], .load err⟩ where
  within _ h := (List.not_mem_nil h).elim
  cause := trivial

/-- A fault inside one more directive. -/
theorem Fault.Sane.inside {g : Graph} {f : Fault} {opening : Opening} (h : f.Sane g)
    (ho : g.Directs opening.origin) : Fault.Sane g { f with within := f.within ++ [opening] } where
  within o hmem := by
    rcases List.mem_append.1 hmem with hmem | hmem
    · exact h.within o hmem
    · rw [List.mem_singleton.1 hmem]; exact ho
  cause := by
    have hcause := h.cause
    cases hf : f.cause with
    | includeFailed => rw [hf] at hcause; exact hcause
    | invalidParams => simp
    | _ => trivial

/-! ## Rules -/

section Rules

variable {Q : α → Expansion → Prop} {F : Fault → Expansion → Prop}

@[simp]
theorem ends_lift {x : Expand α} :
    Ends (Blame.lift x) e Q F ↔ Ends x e Q fun err e' => F ⟨[], err⟩ e' := by
  have hrun :
      (Blame.lift x).run.run e = ((x.run.run e).1.mapError (Fault.mk []), (x.run.run e).2) := rfl
  unfold Ends
  rw [hrun]
  rcases x.run.run e with ⟨_ | _, _⟩ <;> exact Iff.rfl

@[simp]
theorem ends_within {opening : Opening} {x : Blame α} :
    Ends (Blame.within opening x) e Q F ↔
      Ends x e Q fun f e' => F { f with within := f.within ++ [opening] } e' := by
  unfold Ends
  rw [Blame.within_run]
  rcases x.run.run e with ⟨_ | _, _⟩ <;> exact Iff.rfl

theorem ends_report {x : Blame α} {E : ExpandError → Expansion → Prop} :
    Ends (Blame.report x) e Q E ↔ Ends x e Q fun f e' => E (f.report e'.store.graph) e' := by
  unfold Ends
  rw [Blame.report_run]
  rcases x.run.run e with ⟨_ | _, _⟩ <;> exact Iff.rfl

end Rules

/-- Every fault of the step is sane. -/
def Blames (step : Blame α) (e : Expansion) : Prop :=
  Ends step e (fun _ _ => True) fun f e' => f.Sane e'.store.graph

/-- The step only goes on, and every fault of it is sane. -/
def BlamesOn (site : Site) (step : Blame α) (e : Expansion) : Prop :=
  Ends step e (fun _ e' => Advances site e.store e'.store)
    fun f e' => Advances site e.store e'.store ∧ f.Sane e'.store.graph

/-- An expansion goes on if with every fault reported it does. -/
theorem Blames.on {x : Blame α} {y : Expand α} (h : Blames x e) (hreport : x.report = y)
    (hends : Ends y e (fun _ e' => Advances site e.store e'.store) fun _ e' =>
      Advances site e.store e'.store) :
    BlamesOn site x e := by
  rw [← hreport, ends_report] at hends
  exact (hends.and h).mono (fun _ _ h => h.1) fun _ _ h => h

namespace BlamesOn

variable {e₁ : Expansion}

theorem blames {x : Blame α} (h : BlamesOn site x e) : Blames x e :=
  h.mono (fun _ _ _ => trivial) fun _ _ h => h.2

/-- A step after something was loaded. -/
theorem after {x : Blame α} (h : Advances site e.store e₁.store) (hx : BlamesOn site x e₁) :
    Ends x e₁ (fun _ e' => Advances site e.store e'.store)
      fun f e' => Advances site e.store e'.store ∧ f.Sane e'.store.graph :=
  hx.mono (fun _ _ h' => h.trans h') fun _ _ h' => ⟨h.trans h'.1, h'.2⟩

/-- A step while a directive is open. -/
theorem within (opening : Opening) {x : Blame α} (ho : e.store.graph.Directs opening.origin)
    (h : BlamesOn site x e) : BlamesOn site (Blame.within opening x) e := by
  unfold BlamesOn
  rw [ends_within]
  exact h.mono (fun _ _ h => h) fun f e' h => ⟨h.1, h.2.inside (ho.stays h.1.grows.toStays)⟩

/-- A step inside a target. -/
theorem inside {target : Target} {x : Blame α} (h : ∀ opened, BlamesOn site x { e with opened }) :
    BlamesOn site (Blame.inside site target x) e := by
  have hlift : ∀ e', Ends (ExceptT.lift x.run : Blame (Except Fault α)) e'
      (fun result e'' => x.run.run e' = (result, e'')) fun _ _ => False := fun _ => rfl
  unfold BlamesOn Blame.inside Expand.enter Expand.leave
  simp only [ends_bind, ends_lift, ends_get]
  split
  · exact ⟨.refl _, fun _ h => (List.not_mem_nil h).elim, trivial⟩
  · rw [ends_set]
    refine (hlift _).mono ?_ fun _ _ h => h.elim
    rintro (f | a) e₁ hrun
    · have hfault := (h (e.opened ++ [target.key site.disk])).of_error hrun
      exact hfault
    · have hok := (h (e.opened ++ [target.key site.disk])).of_ok hrun
      exact hok

/-- A loop whose rounds go on. -/
theorem concatEach {f : α → Blame (List β)} {l : List α}
    (round : ∀ a ∈ l, ∀ e₁, Advances site e.store e₁.store → BlamesOn site (f a) e₁) :
    BlamesOn site (concatEach f l) e := by
  unfold BlamesOn
  induction l generalizing e with
  | nil => exact .refl _
  | cons a l ih =>
    simp only [Runlist.concatEach, ends_bind, ends_pure]
    refine (round a List.mem_cons_self e (.refl _)).mono (fun _ e₁ h₁ => ?_) fun _ _ h => h
    have hrest := ih fun b hb e₂ h₂ => round b (List.mem_cons_of_mem _ hb) e₂ (h₁.trans h₂)
    exact after h₁ hrest

end BlamesOn

/-! ## Every fault is sane -/

/-- The parameters of a directive, while it is open. -/
theorem includeParams_blames (hs : e.store.graph.Sound) {x : TaskId} (hx : e.store.graph.HasTask x)
    (ho : e.store.graph.Directs (e.store.graph.task x).origin) {read : Json → Except ShapeError α}
    (textKey action : String) :
    BlamesOn site (Blame.within ⟨(e.store.graph.task x).origin, action⟩
      (Blame.lift (includeParams site t read textKey x action))) e := by
  unfold BlamesOn
  rw [ends_within, ends_lift]
  refine ((includeParams_ends hs hx).and (includeParams_fails site t read textKey action x e)).mono
    (fun _ _ h => h.1.1) ?_
  rintro err e₁ ⟨h₁, hcause⟩
  refine ⟨h₁, fun o hmem => ?_, ?_⟩
  · rw [List.mem_singleton.1 hmem]; exact ho.stays h₁.grows.toStays
  -- wrong parameters are those of this directive, which is open
  · obtain ⟨reason, rfl⟩ | ⟨reason, rfl⟩ := hcause
    · trivial
    · exact List.cons_ne_nil _ _

/-- A directive that includes a file of tasks. -/
theorem faultTaskInclude_blames (hs : e.store.graph.Sound) {x : TaskId}
    (hx : e.store.graph.HasTask x) (ho : e.store.graph.Directs (e.store.graph.task x).origin)
    {action : String} {fault : TaskId → Blame (List TaskId)}
    (ih : ∀ y (e : Expansion), e.store.graph.Sound → e.store.graph.HasTask y →
      BlamesOn site (fault y) e) :
    Blames (faultTaskInclude site t fault x action) e := by
  unfold Blames faultTaskInclude
  simp only [ends_bind (x := Blame.lift _), ends_lift, ends_expand_graph]
  rw [ends_bind]
  refine (includeParams_blames hs hx ho "file" action).mono (fun params e₁ h₁ => ?_)
    fun _ _ h => h.2
  have hs₁ := h₁.sound hs
  generalize (e.store.graph.taskPath x).directory.join params.file = file
  rw [ends_bind]
  have htarget : BlamesOn site (Blame.within ⟨(e.store.graph.task x).origin, file.text⟩
      (Blame.inside site (.file file) do
        concatEach fault
          (← Blame.lift (Expand.load (loadTasksIn site (some (e.store.graph.task x).origin)
          (e.store.graph.task x).role (e.store.graph.task x).play file))))) e₁ := by
    refine .within _ (ho.stays h₁.grows.toStays) (.inside fun opened => ?_)
    unfold BlamesOn
    rw [ends_bind, ends_lift, ends_load]
    refine (loadTasks_included hs hx h₁ file).mono ?_ fun err s₂ h => ⟨h.1.advances, .load _ err⟩
    rintro xs s₂ ⟨h₂, hstamped, -⟩
    refine BlamesOn.after h₂.advances (.concatEach fun c hc e₃ h₃ => ?_)
    exact ih c e₃ (h₃.sound (h₂.advances.sound hs₁))
      (h₃.grows.keeps.hasTask (hstamped c hc).placed.has)
  refine htarget.mono (fun tasks e₂ _ => ?_) fun _ _ h => h.2
  simp only [ends_bind, ends_lift, ends_load, ends_update, ends_pure]

/-- A directive that includes a role. -/
theorem faultRoleInclude_blames (hs : e.store.graph.Sound) {x : TaskId}
    (hx : e.store.graph.HasTask x) (ho : e.store.graph.Directs (e.store.graph.task x).origin)
    {action : String} {fault : RoleId → Blame (List TaskId)}
    (ih : ∀ r (e : Expansion), e.store.graph.Sound → e.store.graph.HasRole r →
      BlamesOn site (fault r) e) :
    Blames (faultRoleInclude site t fault x action) e := by
  unfold Blames faultRoleInclude
  simp only [ends_bind (x := Blame.lift Expand.graph), ends_lift, ends_expand_graph]
  rw [ends_bind]
  refine (includeParams_blames hs hx ho "name" action).mono (fun params e₁ h₁ => ?_)
    fun _ _ h => h.2
  have hs₁ := h₁.sound hs
  have k₁ := h₁.grows.keeps
  rw [ends_bind, ends_lift, ends_expand_graph, ends_bind]
  have htarget : BlamesOn site (Blame.within ⟨(e.store.graph.task x).origin, "role " ++ params.name⟩
      (Blame.inside site (.role params.name params.selection.tasksFile) do
        fault (← Blame.lift (Expand.load (loadRoleWith site (some (e.store.graph.task x).origin)
          (e₁.store.graph.taskPlay x) params.name params.selection))))) e₁ := by
    refine .within _ (ho.stays h₁.grows.toStays) (.inside fun opened => ?_)
    unfold BlamesOn
    rw [ends_bind, ends_lift, ends_load]
    refine (loadRole_included hs hx h₁ params.name params.selection).mono ?_
      fun err s₂ h => ⟨h.1.advances, .load _ err⟩
    rintro r s₂ ⟨h₂, _, -, hrole⟩
    exact BlamesOn.after h₂.advances (ih r _ (h₂.advances.sound hs₁) hrole.has)
  refine htarget.mono (fun tasks e₂ _ => ?_) fun _ _ h => h.2
  simp only [ends_bind, ends_lift, ends_load, ends_update, ends_pure]

mutual
/-- **Every fault of a task is sane.** -/
theorem faultTask_blames : ∀ (n : Nat) (x : TaskId) (e : Expansion), e.store.graph.Sound →
    e.store.graph.HasTask x → BlamesOn site (faultTask site t n x) e
  | 0, _, e, _, _ => ⟨.refl _, fun _ h => (List.not_mem_nil h).elim, trivial⟩
  | n + 1, x, e, hs, hx => by
    refine Blames.on ?_ (faultTask_report (n + 1) x) (expandTask_ends (n + 1) hs hx)
    unfold Blames faultTask
    rw [ends_bind, ends_lift, ends_expand_graph]
    by_cases hb : (e.store.graph.task x).isBlock
    · rw [if_pos hb]
      have hblock :
          BlamesOn site (concatEach (faultTask site t n) (e.store.graph.task x).block) e :=
        .concatEach fun c hc e₁ h₁ => faultTask_blames n c e₁ (h₁.sound hs)
          (h₁.grows.keeps.hasTask ((hs.tasks x hx).block c hc).2.has)
      exact hblock.blames
    · rw [if_neg hb]
      have hblock := Task.isBlock_eq_false.1 (Bool.eq_false_iff.2 hb)
      cases ht : (e.store.graph.task x).taskInclude? with
      | some action =>
        have ho := Graph.Directs.task hx (Or.inl (Task.Directive.file hblock ht).kind_eq)
        exact faultTaskInclude_blames hs hx ho (faultTask_blames n)
      | none =>
        cases hr : (e.store.graph.task x).roleInclude? with
        | some action =>
          have ho := Graph.Directs.task hx (Or.inr (Task.Directive.role hblock ht hr).kind_eq)
          exact faultRoleInclude_blames hs hx ho fun r e hs hr => faultRoleOn_blames n r [] e hs hr
        | none => trivial

/-- **Every fault of a role is sane.** -/
theorem faultRoleOn_blames : ∀ (n : Nat) (r : RoleId) (path : List String) (e : Expansion),
    e.store.graph.Sound → e.store.graph.HasRole r → BlamesOn site (faultRoleOn site t n r path) e
  | 0, _, _, e, _, _ => ⟨.refl _, fun _ h => (List.not_mem_nil h).elim, trivial⟩
  | n + 1, r, path, e, hs, hr => by
    unfold BlamesOn faultRoleOn
    simp only [ends_bind, ends_lift, ends_expand_graph, ends_load, ends_ofExcept, ends_pure]
    refine ⟨fun path' _ => ?_, fun err _ => ⟨.refl _, .load _ err⟩⟩
    refine (directDependencies_ends hs hr).mono ?_ fun err s₁ h => ⟨h.1.toAdvances, .load _ err⟩
    intro direct s₁ hfound
    have h₁ := hfound.learns.toAdvances
    have hs₁ := h₁.sound hs
    have hbelow :
        BlamesOn site (concatEach (fun dep => faultRoleOn site t n dep path') direct)
          ⟨s₁, e.opened⟩ :=
      .concatEach fun d hd e₂ h₂ => faultRoleOn_blames n d path' e₂ (h₂.sound hs₁)
        (h₂.grows.keeps.hasRole (hs₁.hasRole_dep hfound.direct hd))
    refine hbelow.mono (fun below e₂ h₂ => ?_) fun f e₂ h₂ => ⟨h₁.trans h₂.1, h₂.2⟩
    have h₁₂ := h₁.trans h₂
    refine BlamesOn.after h₁₂ (.concatEach fun c hc e₃ h₃ => ?_)
    rw [(h₁₂.grows.role r hr).same] at hc
    exact faultTask_blames n c e₃ (h₃.sound (h₁₂.sound hs))
      ((h₁₂.trans h₃).grows.keeps.hasTask ((hs.roles r hr).tasks c hc).has)
end

mutual
/-- **Every fault of a play is sane.** -/
theorem faultPlay_blames : ∀ (n : Nat) (p : PlayId) (e : Expansion), e.store.graph.Sound →
    e.store.graph.HasPlay p → BlamesOn site (faultPlay site t n p) e
  | 0, _, e, _, _ => ⟨.refl _, fun _ h => (List.not_mem_nil h).elim, trivial⟩
  | n + 1, p, e, hs, hp => by
    have hplay := hs.plays p hp
    unfold BlamesOn faultPlay
    simp only [ends_bind (x := Blame.lift Expand.graph), ends_lift, ends_expand_graph]
    cases ht : (e.store.graph.play p).importTarget? with
    | some target =>
      have ho : e.store.graph.Directs (e.store.graph.play p).origin := .play hp (by rw [ht]; rfl)
      refine BlamesOn.within ⟨_, (site.root.join target).text⟩ ho ?_
      unfold BlamesOn
      rw [ends_bind, ends_lift, ends_load]
      have horigin : ∀ o, some (e.store.graph.play p).origin = some o →
          e.store.graph.HasOrigin o := by
        rintro _ ⟨⟩; exact hplay.origin
      refine (loadPlaybook_ends hs horigin (site.root.join target)).mono ?_
        fun err s₁ h => ⟨h.1.advances, .load _ err⟩
      rintro pb s₁ ⟨h₁, -, ds, -, hloaded⟩
      refine BlamesOn.after h₁.advances
        (faultPlaybook_blames n pb _ (h₁.advances.sound hs) fun q hq => ?_)
      obtain ⟨_, -, hq⟩ := exists_left hloaded hq
      exact hq.shows.has
    | none =>
      simp only [ends_bind, ends_pure]
      have htasks :
          BlamesOn site (concatEach (faultTask site t n) (e.store.graph.play p).tasks) e :=
        .concatEach fun c hc e₁ h₁ => faultTask_blames n c e₁ (h₁.sound hs)
          (h₁.grows.keeps.hasTask (hplay.tasks c hc).has)
      refine htasks.mono (fun tasks e₁ h₁ => ?_) fun _ _ h => h
      refine BlamesOn.after h₁ (.concatEach fun r hr e₂ h₂ => ?_)
      obtain ⟨_, -, hstands⟩ := hplay.roles r hr
      exact faultRoleOn_blames n r [] e₂ (h₂.sound (h₁.sound hs))
        ((h₁.trans h₂).grows.keeps.hasRole hstands.has)

/-- **Every fault of a playbook is sane.** -/
theorem faultPlaybook_blames : ∀ (n : Nat) (pb : Playbook) (e : Expansion), e.store.graph.Sound →
    (∀ p ∈ pb.plays, e.store.graph.HasPlay p) → BlamesOn site (faultPlaybook site t n pb) e
  | 0, _, e, _, _ => ⟨.refl _, fun _ h => (List.not_mem_nil h).elim, trivial⟩
  | n + 1, pb, e, hs, hpb => by
    unfold faultPlaybook
    refine .inside fun opened => .concatEach fun p hp e₁ h₁ => ?_
    exact faultPlay_blames n p e₁ (h₁.sound hs) (h₁.grows.keeps.hasPlay (hpb p hp))
end

/-! ## What is reported -/

/-- **The failures that there are**, for the fault that each of them reports. A chain is that of the
innermost directive that is open: its texts are what `Graph.describe` shows of the directive's
origin. -/
inductive Fault.Reports (g : Graph) : Fault → ExpandError → Prop
  /-- A target is entered again; it is reported as it is, whatever is open. -/
  | cycle {within : List Opening} {chain : List String} :
      Reports g ⟨within, .cyclicInclude chain⟩ (.cyclicInclude chain)
  /-- Something cannot be loaded while no directive is open. -/
  | bare {err : LoadError} : Reports g ⟨[], .load err⟩ (.load err)
  /-- Something cannot be loaded while a directive is open. -/
  | load {opening : Opening} {outer : List Opening} {err : LoadError} :
      Reports g ⟨opening :: outer, .load err⟩
        (.includeFailed (g.provenance opening.origin) opening.target (.load err))
  /-- The parameters of a directive are wrong. -/
  | params {opening : Opening} {outer : List Opening} {action : String} {reason : ParamsError} :
      Reports g ⟨opening :: outer, .invalidParams action reason⟩
        (.includeFailed (g.provenance opening.origin) opening.target (.invalidParams action reason))

/-- A sane fault is reported in one of these ways, unless a bound is used up. -/
theorem Fault.Sane.reports {g : Graph} {f : Fault} (h : f.Sane g)
    (hbound : ¬ (f.report g).Exhausted) : f.Reports g (f.report g) := by
  obtain ⟨within, cause⟩ := f
  have hcause := h.cause
  cases cause with
  | load err =>
    cases within with
    | nil => exact .bare
    | cons opening outer => exact .load
  | includeFailed chain target source => exact hcause.elim
  | cyclicInclude chain => cases within <;> exact .cycle
  | invalidParams action reason =>
    cases within with
    | nil => exact absurd rfl hcause
    | cons opening outer => exact .params
  | tooDeep => cases within <;> exact absurd trivial hbound

namespace Entity

/-- What is expanded is part of the graph. -/
def Known (g : Graph) : Entity → Prop
  | task x => g.HasTask x
  | role r => g.HasRole r
  | play p => g.HasPlay p
  | playbook pb => ∀ p ∈ pb.plays, g.HasPlay p

/-- The expansion of an entity, with its faults. -/
def fault (site : Site) (t : Templater) (n : Nat) : Entity → Blame (List TaskId)
  | task x => faultTask site t n x
  | role r => faultRoleOn site t n r []
  | play p => faultPlay site t n p
  | playbook pb => faultPlaybook site t n pb

theorem Known.keeps {g g' : Graph} (k : g.Keeps g') {a : Entity} (h : a.Known g) : a.Known g' := by
  cases a with
  | task x => exact k.hasTask h
  | role r => exact k.hasRole h
  | play p => exact k.hasPlay h
  | playbook pb => exact fun p hp => k.hasPlay (h p hp)

theorem fault_report (n : Nat) (a : Entity) : (a.fault site t n).report = a.expand site t n := by
  cases a with
  | task x => exact faultTask_report n x
  | role r => exact faultRoleOn_report n r []
  | play p => exact faultPlay_report n p
  | playbook pb => exact faultPlaybook_report n pb

theorem fault_blames (n : Nat) (a : Entity) (e : Expansion) (hs : e.store.graph.Sound)
    (ha : a.Known e.store.graph) : BlamesOn site (a.fault site t n) e := by
  cases a with
  | task x => exact faultTask_blames n x e hs ha
  | role r => exact faultRoleOn_blames n r [] e hs ha
  | play p => exact faultPlay_blames n p e hs ha
  | playbook pb => exact faultPlaybook_blames n pb e hs ha

end Entity

/-- **What is reported of a failure.** In any state that is reached, where entities cannot be
expanded, there is a fault: the directives that are open when the failure comes up, all of them
directives of the graph, and the cause. What is reported is a cycle, or the cause as the failure of
the innermost open directive, or, if none is open, that something cannot be loaded. -/
theorem failure_reports {sites : Site → Prop} {s : Store} (h : Reachable sites s) {as : List Entity}
    (has : ∀ a ∈ as, a.Known s.graph) {n : Nat} {opened : List String} {err : ExpandError}
    (hrun : (concatEach (Entity.expand site t n) as).run.run ⟨s, opened⟩ = (.error err, e))
    (hbound : ¬ err.Exhausted) :
    ∃ fault, (concatEach (Entity.fault site t n) as).run.run ⟨s, opened⟩ = (.error fault, e) ∧
      (∀ opening ∈ fault.within, e.store.graph.Directs opening.origin) ∧
      fault.Reports e.store.graph err := by
  have hs := h.sound
  have hreport : (concatEach (Entity.fault site t n) as).report =
      concatEach (Entity.expand site t n) as := by
    rw [Blame.report_concatEach, funext (Entity.fault_report n)]
  have hblames : BlamesOn site (concatEach (Entity.fault site t n) as) ⟨s, opened⟩ :=
    .concatEach fun a ha e₁ h₁ =>
      a.fault_blames n e₁ (h₁.sound hs) ((has a ha).keeps h₁.grows.keeps)
  rw [← hreport, Blame.report_run] at hrun
  rcases hfault : (concatEach (Entity.fault site t n) as).run.run ⟨s, opened⟩ with ⟨fault | ids, e'⟩
  · rw [hfault] at hrun
    cases hrun
    have hsane := (hblames.of_error hfault).2
    exact ⟨fault, rfl, hsane.within, hsane.reports hbound⟩
  · rw [hfault] at hrun
    cases hrun

/-! ## A missing file -/

/-- A file of tasks that includes one that includes a missing one. -/
def brokenSite : Site where
  disk := ⟨.dir [
    ("inner.yml", .file (.text "- include_tasks: missing.yml\n")),
    ("outer.yml", .file (.text "- include_tasks: inner.yml\n"))], []⟩
  root := ⟨"."⟩
  config := ⟨[]⟩

/-- The outer file is loaded into an empty state. -/
def brokenLoad : Except LoadError (List TaskId) × Store :=
  (loadTasks brokenSite none none ⟨"outer.yml"⟩).run.run .empty

/-- Its task is expanded. -/
def brokenExpansion : Except ExpandError (List TaskId) × Expansion :=
  (concatEach (Entity.expand brokenSite (.ofMode false) 10) [.task ⟨0⟩]).run.run ⟨brokenLoad.2, []⟩

/-- The chain and the target of a file that cannot be read. -/
def unread? : Except ExpandError (List TaskId) → Option (List String × String)
  | .error (.includeFailed chain target (.load (.io _ _))) => some (chain.map Origin.text, target)
  | _ => none

theorem of_unread {result : Except ExpandError (List TaskId)} {texts : List String}
    {target : String} (h : unread? result = some (texts, target)) : ∃ chain path reason,
      result = .error (.includeFailed chain target (.load (.io path reason))) ∧
        chain.map Origin.text = texts := by
  unfold unread? at h
  split at h
  · cases h; exact ⟨_, _, _, rfl, rfl⟩
  · cases h

/-- **The inner directive is the one that is reported**, with the chain that ends with it. -/
theorem broken_reports : Reachable (· = brokenSite) brokenLoad.2 ∧
    (∀ a ∈ [Entity.task ⟨0⟩], a.Known brokenLoad.2.graph) ∧
    ∃ chain path reason, chain.map Origin.text = ["outer.yml:1 (task)", "inner.yml:1 (task)"] ∧
      brokenExpansion.1 = .error (.includeFailed chain "missing.yml" (.load (.io path reason))) ∧
      ¬ (ExpandError.includeFailed chain "missing.yml" (.load (.io path reason))).Exhausted ∧
      ∃ fault, (concatEach (Entity.fault brokenSite (.ofMode false) 10) [.task ⟨0⟩]).run.run
          ⟨brokenLoad.2, []⟩ = (.error fault, brokenExpansion.2) ∧
        (∀ opening ∈ fault.within, brokenExpansion.2.store.graph.Directs opening.origin) ∧
        fault.Reports brokenExpansion.2.store.graph
          (.includeFailed chain "missing.yml" (.load (.io path reason))) := by
  have hreach : Reachable (· = brokenSite) brokenLoad.2 :=
    reachable_loadTasks brokenSite ⟨"outer.yml"⟩
  have hhas : brokenLoad.2.graph.HasTask ⟨0⟩ := by decide +kernel
  have hknown : ∀ a ∈ [Entity.task ⟨0⟩], a.Known brokenLoad.2.graph := by
    rintro a ha
    rw [List.mem_singleton.1 ha]
    exact hhas
  have hunread : unread? brokenExpansion.1 =
      some (["outer.yml:1 (task)", "inner.yml:1 (task)"], "missing.yml") := by decide +kernel
  obtain ⟨chain, path, reason, hfail, htexts⟩ := of_unread hunread
  have hrun :
      brokenExpansion = (.error (.includeFailed chain "missing.yml" (.load (.io path reason))),
      brokenExpansion.2) := by rw [← hfail]
  exact ⟨hreach, hknown, chain, path, reason, htexts, hfail, id,
    failure_reports hreach hknown hrun id⟩

end Runlist

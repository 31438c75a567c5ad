import Runlist.Project
import Runlist.Proofs.Opened
import Runlist.Proofs.Reach
import Runlist.Proofs.Watch.Expanding

/-!
# Operations, watched

What may be asked of a state, of one entity or of several, with the moments through which it goes.

* `Operation`: what may be asked. `Operation.run`, `Operation.watch`: the state afterwards, without
  and with the moments before it.
* `Operation.reaches`: an operation on several entities is one request about each of them in turn.
* `addDocuments_store`, `listTasks_store`: the operations of a project.
* `Reachable.wellFormed`: **every graph that is reached is well formed.**
* `Operation.recorded`: **every operation goes on by a course**, however it ends.
-/

namespace Runlist

variable {site : Site} {sites : Site → Prop} {s s₁ s₂ : Store}

/-- What may be asked: one request, or the same of several entities until one fails. -/
inductive Operation where
  | request (q : Request)
  | expandTasks (t : Templater) (bound : Nat) (opened : List String) (tasks : List TaskId)
  | expandPlaybooks (t : Templater) (bound : Nat) (opened : List String) (playbooks : List Playbook)
  | documents (paths : List FilePath)

namespace Operation

/-- The handles in what is asked are those of the graph. -/
def Valid (g : Graph) : Operation → Prop
  | request q => q.Valid g
  | expandTasks _ _ _ xs => ∀ x ∈ xs, g.HasTask x
  | expandPlaybooks _ _ _ pbs => ∀ pb ∈ pbs, ∀ p ∈ pb.plays, g.HasPlay p
  | documents _ => True

/-- The state after an operation, however it ends. -/
def run (site : Site) (s : Store) : Operation → Store
  | request q => q.run site s
  | expandTasks t n opened xs => ((concatEach (expandTask site t n) xs).run.run ⟨s, opened⟩).2.store
  | expandPlaybooks t n opened pbs =>
    ((concatEach (expandPlaybook site t n) pbs).run.run ⟨s, opened⟩).2.store
  | documents paths => ((paths.mapM (loadPlaybook site none)).run.run s).2

end Operation

/-! ## Operations and requests -/

theorem Reaches.trans (h : Reaches sites s s₁) (h' : Reaches sites s₁ s₂) : Reaches sites s s₂ := by
  induction h' with
  | refl => exact h
  | step _ hsite hq ih => exact .step ih hsite hq

theorem Reaches.request {q : Request} (h : q.Valid s.graph) : Reaches (· = site) s (q.run site s) :=
  .step .refl rfl h

/-- A loop of expansions, each of which is a request, and leaves open what was open. -/
theorem reaches_concatEach {α : Type} (expand : α → Expand (List TaskId))
    (call : List String → α → Request) (has : Graph → α → Prop)
    (hhas : ∀ g g' a, g.Keeps g' → has g a → has g' a)
    (hvalid : ∀ g opened a, has g a → (call opened a).Valid g)
    (hrun : ∀ (e : Expansion) a, (call e.opened a).run site e.store =
      ((expand a).run.run e).2.store)
    (hopened : ∀ (e : Expansion) a, ((expand a).run.run e).2.opened = e.opened) {l : List α}
    {e : Expansion} (hs : e.store.graph.Sound) (hl : ∀ a ∈ l, has e.store.graph a) :
    Reaches (· = site) e.store ((concatEach expand l).run.run e).2.store := by
  have hends : Ends (concatEach expand l) e (fun _ e' => Reaches (· = site) e.store e'.store)
      fun _ e' => Reaches (· = site) e.store e'.store := by
    have htrans : ∀ {e₁ e₂ e₃ : Expansion}, Reaches (· = site) e₁.store e₂.store ∧
        e₂.opened = e₁.opened →
        Reaches (· = site) e₂.store e₃.store ∧ e₃.opened = e₂.opened →
        Reaches (· = site) e₁.store e₃.store ∧ e₃.opened = e₁.opened :=
      fun h h' => ⟨h.1.trans h'.1, h'.2.trans h.2⟩
    refine (Ends.concatEach
      (R := fun e e' => Reaches (· = site) e.store e'.store ∧ e'.opened = e.opened)
      (P := fun _ _ _ => True) (fun e => ⟨.refl, rfl⟩) htrans (fun _ _ => trivial)
      fun a ha e₁ h₁ => ?_).mono
      (fun _ _ h => h.1.1) fun _ _ h => h.1
    have hstep : Reaches (· = site) e₁.store ((expand a).run.run e₁).2.store := by
      rw [← hrun]
      exact .request (hvalid _ _ _ (hhas _ _ _ (h₁.1.grows hs).keeps (hl a ha)))
    exact (Ends.of_state (P := fun e₂ => Reaches (· = site) e₁.store e₂.store ∧
      e₂.opened = e₁.opened)
      ⟨hstep, hopened e₁ a⟩).mono (fun _ _ h => ⟨h, trivial⟩) fun _ _ h => h
  exact hends.state (fun _ _ h => h) fun _ _ h => h

/-- **An operation on several entities** is one request about each of them in turn. -/
theorem Operation.reaches {op : Operation} (hs : s.graph.Sound) (h : op.Valid s.graph) :
    Reaches (· = site) s (op.run site s) := by
  cases op with
  | request q => exact .request h
  | expandTasks t n opened xs =>
    exact reaches_concatEach (e := ⟨s, opened⟩) (expandTask site t n)
      (fun opened x => .expandTask t n opened x)
      Graph.HasTask (fun _ _ _ k h => k.hasTask h) (fun _ _ _ h => h) (fun _ _ => rfl)
      (fun e x => (Call.task x).opened_expand site t n e) hs h
  | expandPlaybooks t n opened pbs =>
    exact reaches_concatEach (e := ⟨s, opened⟩) (expandPlaybook site t n)
      (fun opened pb => .expandPlaybook t n opened pb) (fun g pb => ∀ p ∈ pb.plays, g.HasPlay p)
      (fun _ _ _ k h p hp => k.hasPlay (h p hp))
      (fun _ _ _ h => h) (fun _ _ => rfl) (fun e pb =>
        (Call.playbook pb).opened_expand site t n e) hs h
  | documents paths =>
    have hends : Ends (paths.mapM (loadPlaybook site none)) s (fun _ s' => Reaches (· = site) s s')
        fun _ s' => Reaches (· = site) s s' := by
      refine (Ends.mapM (R := fun s s' => Reaches (· = site) s s') (P := fun _ _ _ => True)
        (F := fun _ _ => True) (fun _ => .refl) (fun h h' => h.trans h') (fun _ _ => trivial)
        fun path _ s₁ _ => ?_).mono (fun _ _ h => h.1) fun _ _ h => h.1
      have hvalid : (Request.playbook none path).Valid s₁.graph := by rintro _ ⟨⟩
      have hstep : Reaches (· = site) s₁ ((loadPlaybook site none path).run.run s₁).2 :=
        .request hvalid
      exact (Ends.of_state (P := Reaches (· = site) s₁) hstep).mono (fun _ _ h => ⟨h, trivial⟩)
        fun _ _ h => ⟨h, trivial⟩
    exact hends.state (fun _ _ h => h) fun _ _ h => h

/-- The playbooks of a project are added by loading its documents. -/
theorem addDocuments_store (disk : Disk) (p : Project) (paths : List FilePath) :
    (p.addDocuments disk paths).2.store =
      (Operation.documents paths).run (p.site disk) p.store := by
  induction paths generalizing p with
  | nil => rfl
  | cons path paths ih =>
    have hrun : (Operation.documents (path :: paths)).run (p.site disk) p.store =
        match (loadPlaybook (p.site disk) none path).run.run p.store with
        | (.ok _, s) => (Operation.documents paths).run (p.site disk) s
        | (.error _, s) => s := by
      unfold Operation.run
      simp only [List.mapM_cons]
      rw [run_bind]
      rcases (loadPlaybook (p.site disk) none path).run.run p.store with ⟨_ | _, s⟩
      · rfl
      · simp only
        rw [run_bind]
        rcases (paths.mapM (loadPlaybook (p.site disk) none)).run.run s with ⟨_ | _, _⟩ <;> rfl
    rw [hrun, Project.addDocuments]
    rcases (loadPlaybook (p.site disk) none path).run.run p.store with ⟨e | pb, s⟩
    · rfl
    · simp only
      rw [ih]
      by_cases hempty : pb.isEmpty
      · rw [if_pos hempty]; rfl
      · rw [if_neg hempty]
        unfold Project.addPlaybook
        by_cases hmain : Project.isMain pb.path
        · rw [if_pos hmain]; rfl
        · rw [if_neg hmain]; rfl

/-- The tasks of a project are those of its playbooks, expanded one after the other. -/
theorem listTasks_store (disk : Disk) (p : Project) :
    (p.listTasks disk).2.store =
      (Operation.expandPlaybooks p.templater (expansionBound (p.site disk) p.store)
        [] p.playbooks).run
        (p.site disk) p.store := rfl

/-! ## Moments -/

/-- What is seen of the graph while something is expanded. -/
def Tape.looks (t : Tape Expansion Moment) : Tape Store Look :=
  ⟨t.state.store, t.moments.map Moment.look⟩

/-- A request, watched. -/
def Request.watch (site : Site) (s : Store) : Request → Tape Store Look
  | tasks origin owner path => ((watchTasksIn site origin owner none path).run.run ⟨s, []⟩).2
  | playbook origin path => ((watchPlaybook site origin path).run.run ⟨s, []⟩).2
  | role origin play name selection =>
    ((watchRoleWith site origin play name selection).run.run ⟨s, []⟩).2
  | directDependencies r => ((watchDirect site r).run.run ⟨s, []⟩).2
  | allDependencies r => ((watchAll site r).run.run ⟨s, []⟩).2
  | defaultVars r => ((watchDefaultVars site r).run.run ⟨s, []⟩).2
  | vars play task => ((watchVars site play task).run.run ⟨s, []⟩).2
  | taskVars x => ((watchTaskVars site x).run.run ⟨s, []⟩).2
  | module t x action => ((watchModule site t x action).run.run ⟨s, []⟩).2
  | text t x action => ((watchText site t x action).run.run ⟨s, []⟩).2
  | expandTask t n opened x => ((watchExpandTask site t n [] x).run.run ⟨⟨s, opened⟩, []⟩).2.looks
  | expandRole t n opened r =>
    ((watchExpandRoleOn site t n [] r []).run.run ⟨⟨s, opened⟩, []⟩).2.looks
  | expandPlay t n opened p => ((watchExpandPlay site t n [] p).run.run ⟨⟨s, opened⟩, []⟩).2.looks
  | expandPlaybook t n opened pb =>
    ((watchExpandPlaybook site t n [] pb).run.run ⟨⟨s, opened⟩, []⟩).2.looks

/-- **An operation, watched.** -/
def Operation.watch (site : Site) (s : Store) : Operation → Tape Store Look
  | request q => q.watch site s
  | expandTasks t n opened xs =>
    ((concatEach (watchExpandTask site t n []) xs).run.run ⟨⟨s, opened⟩, []⟩).2.looks
  | expandPlaybooks t n opened pbs =>
    ((concatEach (watchExpandPlaybook site t n []) pbs).run.run ⟨⟨s, opened⟩, []⟩).2.looks
  | documents paths => ((paths.mapM (watchPlaybook site none)).run.run ⟨s, []⟩).2

/-- **The tape ends in the state**, and it is the tape of a course from the graph to that of the
state. -/
structure Recorded (s : Store) (t : Tape Store Look) (s' : Store) : Prop where
  state : t.state = s'
  course : Course (.since s.graph 0) s.graph t.moments s'.graph

theorem recorded_load {α : Type} {x' : Watch α} {x : Load α} (hm : Mirrors x' x)
    {Q : α → Graph → Prop} (hl : Legal (.since s.graph 0) x' ⟨s, []⟩ Q) :
    Recorded s (x'.run.run ⟨s, []⟩).2 (x.run.run s).2 := by
  have hstate : (x'.run.run ⟨s, []⟩).2.state = (x.run.run s).2 := (hm ⟨s, []⟩).2
  obtain ⟨seen, hseen, hcourse⟩ := hl.continues
  refine ⟨hstate, ?_⟩
  have hid : seen.map (Watched.look Store) = seen := List.map_id seen
  rw [hid] at hcourse
  rw [hseen, ← hstate]
  exact hcourse

theorem recorded_expand {α : Type} {x' : WatchExpand α} {x : Expand α} {opened : List String}
    (hm : Mirrors x' x) {Q : α → Graph → Prop}
    (hl : Legal (.since s.graph 0) x' ⟨⟨s, opened⟩, []⟩ Q) :
    Recorded s (x'.run.run ⟨⟨s, opened⟩, []⟩).2.looks (x.run.run ⟨s, opened⟩).2.store := by
  have hstate : (x'.run.run ⟨⟨s, opened⟩, []⟩).2.state = (x.run.run ⟨s, opened⟩).2 :=
    (hm ⟨⟨s, opened⟩, []⟩).2
  obtain ⟨seen, hseen, hcourse⟩ := hl.continues
  refine ⟨congrArg Expansion.store hstate, ?_⟩
  rw [Tape.looks, hseen, ← hstate]
  exact hcourse

section Recorded

variable (hg : s.graph.WellFormed)
include hg

theorem began_since : Began (.since s.graph 0) s.graph := ⟨.refl _, Nat.zero_le _, hg⟩

/-- **Every request goes on by a course**, however it ends. -/
theorem Request.recorded {q : Request} (h : q.Valid s.graph) :
    Recorded s (q.watch site s) (q.run site s) := by
  have hb : Began (.since s.graph 0) s.graph := began_since hg
  cases q with
  | tasks origin role path =>
    have ha : Accepts (.since s.graph 0) s.graph ⟨path, role, none⟩ origin none := by
      refine ⟨h.1, ?_, h.2, ?_⟩
      · rintro _ ⟨⟩
      · rintro _ ⟨⟩
    exact recorded_load (mirrors_tasksIn _ _ _ _) (legal_tasksIn hb ha)
  | playbook origin path =>
    exact recorded_load (mirrors_playbook _ _) (legal_playbook (t := ⟨s, []⟩) hb h path)
  | role origin play name selection =>
    exact recorded_load (mirrors_roleWith _ _ _ _) (legal_roleWith hb h.1 h.2 name selection)
  | directDependencies r =>
    exact recorded_load (mirrors_direct _) (legal_direct hb h (Nat.zero_le _))
  | allDependencies r => exact recorded_load (mirrors_all _) (legal_all hb h (Nat.zero_le _))
  | defaultVars r =>
    exact recorded_load (mirrors_defaultVars _) (legal_defaultVars hb h (Nat.zero_le _))
  | vars play task => exact recorded_load (mirrors_vars _ _) (legal_vars hb h.1 h.2 rfl)
  | taskVars x => exact recorded_load (mirrors_taskVars _) (legal_taskVars hb h (Nat.zero_le _) rfl)
  | module t x action =>
    exact recorded_load (mirrors_module _ _ _) (legal_module (t := ⟨s, []⟩) hb h rfl rfl t action)
  | text t x action =>
    exact recorded_load (mirrors_text _ _ _) (legal_text (t := ⟨s, []⟩) hb h rfl rfl t action)
  | expandTask t n opened x =>
    exact recorded_expand (mirrors_expandTask n [] x)
      (legal_expandTask n _ 0 [] x _ hb ⟨Nat.zero_le _, h⟩)
  | expandRole t n opened r =>
    exact recorded_expand (mirrors_expandRoleOn n [] r [])
      (legal_expandRoleOn n _ 0 0 [] r [] _ hb (Graph.closed_zero _) ⟨Nat.zero_le _, h⟩)
  | expandPlay t n opened p =>
    exact recorded_expand (mirrors_expandPlay n [] p) (legal_expandPlay n [] p _ hb h)
  | expandPlaybook t n opened pb =>
    exact recorded_expand (mirrors_expandPlaybook n [] pb) (legal_expandPlaybook n [] pb _ hb h)

/-- **Every operation goes on by a course**, however it ends. -/
theorem Operation.recorded {op : Operation} (h : op.Valid s.graph) :
    Recorded s (op.watch site s) (op.run site s) := by
  have hb : Began (.since s.graph 0) s.graph := began_since hg
  cases op with
  | request q => exact q.recorded hg h
  | expandTasks t n opened xs =>
    refine recorded_expand (mirrors_concatEach (mirrors_expandTask n []) xs)
      (legal_concatEach (P := Fresh 0) Fresh.writes fun x hx t' h' => ?_)
    exact legal_expandTask n _ 0 [] x t' (hb.continues h')
      ⟨Nat.zero_le _, h'.spans.hasTask (h x hx)⟩
  | expandPlaybooks t n opened pbs =>
    refine recorded_expand (mirrors_concatEach (mirrors_expandPlaybook n []) pbs)
      (legal_concatEach (P := Fresh 0) Fresh.writes fun pb hpb t' h' => ?_)
    exact legal_expandPlaybook n [] pb t' (hb.continues h') fun p hp =>
      h'.spans.hasPlay (h pb hpb p hp)
  | documents paths =>
    refine recorded_load (mirrors_mapM (mirrors_playbook none) paths)
      (legal_mapM (P := fun pb g => ∀ p ∈ pb.plays, g.HasPlay p)
        (fun _ _ _ hw h p hp => hw.spans.hasPlay (h p hp)) fun path _ t' h' => ?_)
    exact legal_playbook (hb.continues h') (by rintro _ ⟨⟩) path

end Recorded

/-- **Requests keep a graph well formed.** -/
theorem Reaches.wellFormed (h : Reaches sites s s₁) (hg : s.graph.WellFormed) :
    s₁.graph.WellFormed := by
  induction h with
  | refl => exact hg
  | step _ _ hq ih => exact (Request.recorded ih hq).course.writes.wellFormed ih

/-- **Every graph that is reached is well formed.** -/
theorem Reachable.wellFormed (h : Reachable sites s) : s.graph.WellFormed :=
  Reaches.wellFormed h Graph.wellFormed_empty

end Runlist

import Runlist.Proofs.Watch.Expand
import Runlist.Proofs.Watch.Loading

/-!
# Expansion is legal

Every expansion goes on by a course, given handles of entities. What it writes to what was there is
what loading and resolving write. In addition a directive becomes the parent of tasks, and this
could close a circle: it does not, since the chain on which the topmost task is searched stays among
the tasks that were loaded after the directive began, up to the directive itself.

* `Hung`: from a number on, tasks hang below each other or below one older task.
* `legal_adopt`: a directive adopts tasks that hang so.
* `legal_expandTask`, `legal_expandRoleOn`, `legal_expandPlay`, `legal_expandPlaybook`: **the
  expansions.**
-/

namespace Runlist

open Runlist.Graph (Writes Within Closed TaskChange)

variable {L : Limits} {g g' g₀ : Graph} {site : Site} {templater : Templater}
  {inside : List Frame} {c d : Nat}

theorem freshAll_writes (xs : List TaskId) (g g' : Graph) (hw : Writes L g g')
    (h : ∀ x ∈ xs, Fresh c x g) :
    ∀ x ∈ xs, Fresh c x g' := fun x hx => (h x hx).writes _ _ _ hw

/-! ## Adoption -/

/-- **Tasks from number `c` on** have parents from there on, or the older task `top`. -/
def Hung (c : Nat) (top : TaskId) (g : Graph) : Prop :=
  ∀ x p, c ≤ x.index → (g.task x).parent = some p → c ≤ p.index ∨ p = top

/-- The topmost task of a chain that begins at number `c` or later is one of these. -/
theorem Hung.chainRoot {top : TaskId} (h : Hung c top g) {n : Nat} {x : TaskId} (hx : c ≤ x.index) :
    c ≤ (g.chainRoot top n x).index := by
  induction n generalizing x with
  | zero => exact hx
  | succ n ih =>
    rw [Graph.chainRoot]
    cases hp : (g.task x).parent with
    | none => exact hx
    | some p =>
      simp only
      by_cases hne : p = top
      · rw [if_pos hne]; exact hx
      · rw [if_neg hne]; exact ih ((h x p hx hp).resolve_right hne)

theorem Hung.modify {top root : TaskId} (h : Hung c top g) :
    Hung c top (g.modifyTask root fun t => { t with parent := some top }) := by
  intro x p hx hp
  rw [Graph.task_modifyTask] at hp
  split at hp
  · cases hp; exact .inr rfl
  · exact h x p hx hp

section Adopt

variable {t : Tape Store Look} {top : TaskId}

/-- **A directive adopts a task** that was loaded after the directive had begun. The topmost task of
the chain is younger than the directive, so that the directive is not below it. -/
theorem legal_adoptOne (hb : Began L t.graph) (htop : Fresh L.parents top t.graph)
    (hlt : top.index < c) (hc : L.start.tasks.size ≤ c) (h : Hung c top t.graph) {x : TaskId}
    (hx : Fresh c x t.graph) : Legal L (watchAdoptOne top x) t fun _ g => Hung c top g := by
  have hwalk : ∀ y ∈ visited (t.graph.below top) t.graph.tasks.size x, t.graph.HasTask y :=
    visited_mem (fun y p hy hp =>
      ((hb.wellFormed.tasks y hy).parent p (Option.filter_eq_some_iff.1 hp).1).1) hx.2
  refine legal_bind (legal_look fun m hm => ?_) fun g t₁ _ hg => ?_
  · obtain ⟨y, hy, rfl⟩ := List.mem_map.1 hm
    exact hwalk y hy
  obtain ⟨rfl, hg₁⟩ := hg
  rw [← hg₁] at hb htop h hx ⊢
  simp only
  split
  · rename_i hroot
    have hnew : c ≤ (t₁.graph.chainRoot top t₁.graph.tasks.size x).index := h.chainRoot hx.1
    have hhas : t₁.graph.HasTask (t₁.graph.chainRoot top t₁.graph.tasks.size x) := by
      obtain ⟨l, -, -, hmem, hlast⟩ := hb.wellFormed.visits_below top hx.2
      exact hmem _ (List.mem_of_getLast? hlast)
    refine (legal_update (.task _) hhas (.changeTask (fun ht => ?_) ?_)).mono fun _ g _ hg => ?_
    · refine { ht with parent := fun p hp => ?_ }
      cases hp; exact ⟨htop.2, hlt.trans_le hnew⟩
    · refine ⟨fun hold => absurd hold (not_lt.2 (hc.trans hnew)), fun _ => rfl, fun _ h => h,
        fun p hp => ?_,
        fun p hp => ?_⟩
      · rw [hroot.2] at hp; cases hp
      · cases hp; exact .inr htop.1
    · rw [hg]; exact h.modify
  · exact legal_pure h

theorem legal_adopt (hb : Began L t.graph) (htop : Fresh L.parents top t.graph)
    (hlt : top.index < c) (hc : L.start.tasks.size ≤ c) (h : Hung c top t.graph) {xs : List TaskId}
    (hxs : ∀ x ∈ xs, Fresh c x t.graph) : Legal L (watchAdopt xs top) t fun _ _ => True := by
  induction xs generalizing t with
  | nil => exact legal_pure trivial
  | cons x xs ih =>
    refine legal_bind (legal_adoptOne hb htop hlt hc h (hxs x List.mem_cons_self))
      fun _ t₁ h₁ hhung => ?_
    refine ih (hb.continues h₁) (htop.writes _ _ _ h₁.writes) hhung fun y hy => ?_
    exact (hxs y (List.mem_cons_of_mem _ hy)).writes _ _ _ h₁.writes

end Adopt

/-! ## Includes -/

/-- The limits of an expansion: it may remember whatever it learns. -/
abbrev Limits.since (start : Graph) (parents : Nat) : Limits := ⟨start, parents, 0, 0⟩

variable {t : Tape Expansion Moment}

theorem legal_finish {id : TaskId} {origin : OriginId} {target : String}
    {result : Except ExpandError (List TaskId)} (hb : Began L t.graph)
    (hid : Fresh L.parents id t.graph) (horigin : t.graph.HasOrigin origin) (hlt : id.index < c)
    (hc : L.start.tasks.size ≤ c) (h : Hung c id t.graph)
    (hresult : ∀ xs, result = .ok xs → ∀ x ∈ xs, Fresh c x t.graph) :
    Legal L (watchFinish inside id origin target result) t fun xs g =>
      ∀ x ∈ xs, Fresh L.parents x g := by
  cases result with
  | error e => exact legal_failed hb.wellFormed horigin target e
  | ok xs =>
    refine legal_bind (legal_load (legal_adopt hb hid hlt hc h (hresult xs rfl)))
      fun _ t₁ h₁ _ => ?_
    refine legal_pure fun x hx => ((hresult xs rfl x hx).writes _ _ _ h₁.writes).of_le ?_
    exact hid.1.trans (le_of_lt hlt)

theorem legal_directive {textKey : String} {x : TaskId} (hb : Began (.since g₀ c) t.graph)
    (hx : t.graph.HasTask x) (action : String) :
    Legal (.since g₀ c) (watchDirective site templater inside textKey x action) t
      fun _ _ => True := by
  refine legal_bind (legal_expand_look fun m hm => ?_) fun g t₁ h₁ _ => ?_
  · rw [List.mem_singleton.1 hm]; exact hx
  have hb₁ : Began (.since g₀ c) (Tape.graph (⟨t₁.state.store, []⟩ : Tape Store Look)) :=
    hb.continues h₁
  have hx₁ : (Tape.graph (⟨t₁.state.store, []⟩ : Tape Store Look)).HasTask x := h₁.spans.hasTask hx
  split
  · refine legal_bind (legal_load (legal_taskVars hb₁ hx₁ (Nat.zero_le _) rfl)) fun vars _ _ _ => ?_
    split
    · exact legal_pure trivial
    · exact legal_throw _
  · refine legal_bind (legal_load (legal_module hb₁ hx₁ rfl rfl templater action)) fun m _ _ _ => ?_
    split
    · exact legal_pure trivial
    · exact legal_pure trivial
  · exact legal_throw _

theorem legal_params {α : Type} {read : Json → Except ShapeError α} {textKey : String} {x : TaskId}
    (hb : Began (.since g₀ c) t.graph) (hx : t.graph.HasTask x) (action : String) :
    Legal (.since g₀ c) (watchParams site templater inside read textKey x action) t
      fun _ _ => True := by
  refine legal_bind (legal_directive hb hx action) fun value _ _ _ => ?_
  split
  · exact legal_pure trivial
  · exact legal_throw _

/-- **What a directive loads and expands** is an operation of its own, which begins where the
directive does. Afterwards the tasks that it gives hang below each other, since those that were
there have not been adopted. -/
theorem legal_nested {frame : Frame} {step : List Frame → WatchExpand (List TaskId)} {x : TaskId}
    (hb : Began (.since g₀ c) t.graph)
    (h : ∀ t', t'.graph = t.graph → Began (.since t.graph t.graph.tasks.size) t'.graph →
      Legal (.since t.graph t.graph.tasks.size) (step (inside ++ [frame])) t' fun xs g =>
        ∀ x ∈ xs, Fresh t.graph.tasks.size x g) :
    Legal (.since g₀ c) (WatchExpand.entered site inside frame step) t fun result g =>
      (∀ xs, result = .ok xs → ∀ x ∈ xs, Fresh t.graph.tasks.size x g) ∧
        Hung t.graph.tasks.size x g := by
  have hb' : Began (.since t.graph t.graph.tasks.size) t.graph := ⟨.refl _, le_rfl, hb.wellFormed⟩
  have hpart : Within (.since g₀ c) (.since t.graph t.graph.tasks.size) :=
    ⟨hb.spans, hb.parents.trans hb.spans.tasks, le_rfl, le_rfl⟩
  refine ((legal_entered freshAll_writes
    fun t' h' hg' => h t' hg' (hb'.continues h')).within hpart).mono ?_
  rintro result g - ⟨hresult, hwrites⟩
  refine ⟨hresult, fun y p hy hp => .inl ?_⟩
  exact (hwrites.closed le_rfl le_rfl (Graph.closed_size _)).parent y p hy hp

theorem legal_taskInclude {expand : List Frame → TaskId → WatchExpand (List TaskId)}
    (hexpand :
      ∀ (g₀ : Graph) (c : Nat) (inside : List Frame) (x : TaskId) (t : Tape Expansion Moment),
      Began (.since g₀ c) t.graph → Fresh c x t.graph →
        Legal (.since g₀ c) (expand inside x) t fun xs g => ∀ x ∈ xs, Fresh c x g)
    {x : TaskId} (hb : Began (.since g₀ c) t.graph) (hx : Fresh c x t.graph) (action : String) :
    Legal (.since g₀ c) (watchTaskInclude site templater expand inside x action) t fun xs g =>
      ∀ x ∈ xs, Fresh c x g := by
  have htask := hb.wellFormed.tasks x hx.2
  refine legal_bind (legal_expand_look fun m hm => ?_) fun g t₁ h₁ hg => ?_
  · rcases List.mem_cons.1 hm with rfl | hm
    · exact hx.2
    · rw [List.mem_singleton.1 hm]; exact htask.origin
  obtain ⟨rfl, -⟩ := hg
  refine legal_bind
    (legal_attempt (legal_params (hb.continues h₁) (h₁.spans.hasTask hx.2) action)) ?_
  intro params t₂ h₂ _
  have h₂ := h₁.trans h₂
  have hb₂ := hb.continues h₂
  have htask₂ := htask.spans h₂.spans
  cases params with
  | error e => exact legal_failed hb₂.wellFormed htask₂.origin _ _
  | ok params =>
    refine legal_bind (legal_nested (x := x) hb₂ fun t' hg' hb' => ?_) fun result t₃ h₃ hq => ?_
    · -- the file is loaded, and each of its tasks is expanded
      have ha : Accepts (.since t₂.graph t₂.graph.tasks.size) t'.graph
          ⟨(t.graph.taskPath x).directory.join params.file, (t.graph.task x).role,
            (t.graph.task x).play⟩
          (some (t.graph.task x).origin) none := by
        rw [hg']
        refine ⟨?_, ?_, htask₂.role, htask₂.play⟩
        · rintro _ ⟨⟩; exact htask₂.origin
        · rintro _ ⟨⟩
      refine legal_bind (legal_load (legal_tasksIn hb' ha)) fun xs t'' h'' hxs => ?_
      refine legal_concatEach (P := Fresh t₂.graph.tasks.size) Fresh.writes fun y hy t₄ h₄ => ?_
      refine hexpand _ _ _ y t₄ ((hb'.continues h'').continues h₄)
        (((hxs y hy).of_le ?_).writes _ _ _ h₄.writes)
      exact (congrArg (·.tasks.size) hg').ge
    · have h₃ := h₂.trans h₃
      refine legal_finish (hb.continues h₃) (hx.writes _ _ _ h₃.writes)
        (h₃.spans.hasOrigin htask.origin)
        (h₂.spans.hasTask hx.2) hb₂.spans.tasks hq.2 hq.1

theorem legal_roleInclude {expand : List Frame → RoleId → WatchExpand (List TaskId)}
    (hexpand :
      ∀ (g₀ : Graph) (c d : Nat) (inside : List Frame) (r : RoleId) (t : Tape Expansion Moment),
      Began (.since g₀ c) t.graph → t.graph.Closed c d → FreshRole d r t.graph →
        Legal (.since g₀ c) (expand inside r) t fun xs g => ∀ x ∈ xs, Fresh c x g)
    {x : TaskId} (hb : Began (.since g₀ c) t.graph) (hx : Fresh c x t.graph) (action : String) :
    Legal (.since g₀ c) (watchRoleInclude site templater expand inside x action) t fun xs g =>
      ∀ x ∈ xs, Fresh c x g := by
  have htask := hb.wellFormed.tasks x hx.2
  refine legal_bind (legal_expand_look fun m hm => ?_) fun g t₁ h₁ hg => ?_
  · rw [List.mem_singleton.1 hm]; exact hx.2
  obtain ⟨rfl, -⟩ := hg
  refine legal_bind
    (legal_attempt (legal_params (hb.continues h₁) (h₁.spans.hasTask hx.2) action)) ?_
  intro params t₂ h₂ _
  have h₂ := h₁.trans h₂
  have hb₂ := hb.continues h₂
  have hx₂ := h₂.spans.hasTask hx.2
  cases params with
  | error e => exact legal_failed hb₂.wellFormed (h₂.spans.hasOrigin htask.origin) _ _
  | ok params =>
    refine legal_bind (legal_expand_look (hb₂.wellFormed.has_taskHandles hx₂)) fun g t₃ h₃ hg => ?_
    obtain ⟨rfl, hg₃⟩ := hg
    have h₃ := h₂.trans h₃
    have hb₃ := hb.continues h₃
    have hplay := hb₂.wellFormed.hasPlay_taskPlay hx₂
    refine legal_bind (legal_nested (x := x) hb₃ fun t' hg' hb' => ?_) fun result t₄ h₄ hq => ?_
    · -- the role is loaded and expanded; its tasks are new, and so are those of its dependencies
      have horigin : ∀ o, some (t.graph.task x).origin = some o → t'.graph.HasOrigin o := by
        rintro _ ⟨⟩; rw [hg']; exact h₃.spans.hasOrigin htask.origin
      have hplay' : ∀ p, t₂.graph.taskPlay x = some p → t'.graph.HasPlay p := by
        intro p hp; rw [hg', hg₃]; exact hplay p hp
      refine legal_bind
        (legal_load (legal_roleWith hb' horigin hplay' params.name params.selection)) ?_
      intro r t'' h'' hr
      have hclosed : t''.graph.Closed t₃.graph.tasks.size t₃.graph.roles.size := by
        refine h''.writes.closed le_rfl le_rfl ?_
        rw [hg']; exact Graph.closed_size _
      exact hexpand _ _ _ _ r t'' (hb'.continues h'') hclosed
        ⟨(congrArg (·.roles.size) hg').ge.trans hr.1, hr.2⟩
    · have h₄ := h₃.trans h₄
      refine legal_finish (hb.continues h₄) (hx.writes _ _ _ h₄.writes)
        (h₄.spans.hasOrigin htask.origin)
        (h₃.spans.hasTask hx.2) hb₃.spans.tasks hq.2 hq.1

/-! ## Expansions -/

mutual
theorem legal_expandTask : ∀ (n : Nat) (g₀ : Graph) (c : Nat) (inside : List Frame) (x : TaskId)
    (t : Tape Expansion Moment), Began (.since g₀ c) t.graph → Fresh c x t.graph →
      Legal (.since g₀ c) (watchExpandTask site templater n inside x) t
        fun xs g => ∀ x ∈ xs, Fresh c x g
  | 0, _, _, _, _, _, _, _ => legal_throw _
  | n + 1, g₀, c, inside, x, t, hb, hx => by
    rw [watchExpandTask]
    refine legal_bind (legal_expand_look fun m hm => ?_) fun g t₁ h₁ hg => ?_
    · rw [List.mem_singleton.1 hm]; exact hx.2
    obtain ⟨rfl, -⟩ := hg
    have hb₁ := hb.continues h₁
    have hx₁ := hx.writes _ _ _ h₁.writes
    by_cases hblock : (t.graph.task x).isBlock
    · simp only [if_pos hblock]
      refine legal_concatEach (P := Fresh c) Fresh.writes fun y hy t₂ h₂ => ?_
      have hchild := (hb.wellFormed.tasks x hx.2).block y hy
      exact legal_expandTask n g₀ c inside y t₂ (hb₁.continues h₂)
        ⟨hx.1.trans (le_of_lt hchild.2), (h₁.trans h₂).spans.hasTask hchild.1⟩
    · simp only [if_neg hblock]
      cases (t.graph.task x).taskInclude? with
      | some action => exact legal_taskInclude (legal_expandTask n) hb₁ hx₁ action
      | none =>
        cases (t.graph.task x).roleInclude? with
        | some action =>
          exact legal_roleInclude (fun g₀ c d inside r t =>
            legal_expandRoleOn n g₀ c d inside r [] t) hb₁ hx₁
            action
        | none =>
          refine legal_pure fun y hy => ?_
          rw [List.mem_singleton.1 hy]; exact hx₁

theorem legal_expandRoleOn : ∀ (n : Nat) (g₀ : Graph) (c d : Nat) (inside : List Frame) (r : RoleId)
    (path : List String) (t : Tape Expansion Moment), Began (.since g₀ c) t.graph →
    t.graph.Closed c d →
      FreshRole d r t.graph →
      Legal (.since g₀ c) (watchExpandRoleOn site templater n inside r path) t
        fun xs g => ∀ x ∈ xs, Fresh c x g
  | 0, _, _, _, _, _, _, _, _, _, _ => legal_throw _
  | n + 1, g₀, c, d, inside, r, path, t, hb, hclosed, hr => by
    rw [watchExpandRoleOn]
    have hlook : ∀ g : Graph, g.HasRole r → ∀ m ∈ [Handle.role r], g.Has m := by
      intro g hg m hm
      rw [List.mem_singleton.1 hm]; exact hg
    refine legal_bind (legal_expand_look (hlook _ hr.2)) fun g t₁ h₁ _ => ?_
    refine legal_bind (legal_load (legal_aside (quiet_ofExcept _))) fun path t₂ h₂ _ => ?_
    have h₂ := h₁.trans h₂
    refine legal_bind
      (legal_load (legal_direct (hb.continues h₂) (h₂.spans.hasRole hr.2) (Nat.zero_le _))) ?_
    intro direct t₃ h₃ hdirect
    have h₃ := h₂.trans h₃
    -- the dependencies are younger than the role, and so are their tasks
    refine legal_bind (legal_concatEach (P := Fresh c) Fresh.writes fun dep hdep t' h' => ?_)
      fun below t₄ h₄ hbelow => ?_
    · have hnew := hdirect.1 dep hdep
      exact legal_expandRoleOn n g₀ c d inside dep path t' (hb.continues (h₃.trans h'))
        ((h₃.trans h').writes.closed le_rfl hb.parents hclosed)
        ⟨hr.1.trans (le_of_lt hnew.2), h'.spans.hasRole hnew.1⟩
    have h₄ := h₃.trans h₄
    have hr₄ := h₄.spans.hasRole hr.2
    have hb₄ := hb.continues h₄
    have hclosed₄ := h₄.writes.closed le_rfl hb.parents hclosed
    refine legal_bind (legal_expand_look (hlook _ hr₄)) fun g t₅ h₅ hg => ?_
    obtain ⟨rfl, -⟩ := hg
    refine legal_bind (legal_concatEach (P := Fresh c) Fresh.writes fun y hy t' h' => ?_)
      fun own t₆ h₆ hown => legal_pure fun y hy => ?_
    · exact legal_expandTask n g₀ c inside y t' (hb₄.continues (h₅.trans h'))
        ⟨hclosed₄.tasks r hr.1 y hy,
          (h₅.trans h').spans.hasTask ((hb₄.wellFormed.roles r hr₄).tasks y hy)⟩
    · rcases List.mem_append.1 hy with hy | hy
      · exact (hbelow y hy).writes _ _ _ (h₅.trans h₆).writes
      · exact hown y hy
end

mutual
theorem legal_expandPlay :
    ∀ (n : Nat) (inside : List Frame) (p : PlayId) (t : Tape Expansion Moment),
    Began (.since g₀ 0) t.graph → t.graph.HasPlay p →
      Legal (.since g₀ 0) (watchExpandPlay site templater n inside p) t
        fun xs g => ∀ x ∈ xs, Fresh 0 x g
  | 0, _, _, _, _, _ => legal_throw _
  | n + 1, inside, p, t, hb, hp => by
    rw [watchExpandPlay]
    refine legal_bind (legal_expand_look fun m hm => ?_) fun g t₁ h₁ hg => ?_
    · rw [List.mem_singleton.1 hm]; exact hp
    obtain ⟨rfl, -⟩ := hg
    have hb₁ := hb.continues h₁
    have hplay := (hb.wellFormed.plays p hp).spans h₁.spans
    simp only
    cases (t.graph.play p).importTarget? with
    | some target =>
      have horigin : ∀ o, some (t.graph.play p).origin = some o → t₁.graph.HasOrigin o := by
        rintro _ ⟨⟩; exact hplay.origin
      have hbody : Legal (.since g₀ 0) (do
          let playbook ← WatchExpand.load inside
            (watchPlaybook site (some (t.graph.play p).origin) (site.root.join target))
          watchExpandPlaybook site templater n inside playbook) t₁ fun xs g =>
            ∀ x ∈ xs, Fresh 0 x g := by
        refine legal_bind (legal_load (legal_playbook hb₁ horigin _)) fun pb t₂ h₂ hpb => ?_
        exact legal_expandPlaybook n inside pb t₂ (hb₁.continues h₂) hpb
      refine legal_bind (legal_attempt hbody) fun result t₂ h₂ hresult => ?_
      cases result with
      | ok xs => exact legal_pure (hresult xs rfl)
      | error e =>
        exact legal_failed (hb₁.continues h₂).wellFormed (h₂.spans.hasOrigin hplay.origin) _ _
    | none =>
      have htasks : ∀ x ∈ (t.graph.play p).tasks, t₁.graph.HasTask x := by
        intro x hx
        unfold Play.tasks at hx
        rcases List.mem_append.1 hx with hx | hx
        · rcases List.mem_append.1 hx with hx | hx
          · exact hplay.preTasks x hx
          · exact hplay.mainTasks x hx
        · exact hplay.postTasks x hx
      refine legal_bind (legal_concatEach (P := Fresh 0) Fresh.writes fun x hx t' h' => ?_)
        fun tasks t₂ h₂ hq₂ => ?_
      · exact legal_expandTask n g₀ 0 inside x t' (hb₁.continues h')
          ⟨Nat.zero_le _, h'.spans.hasTask (htasks x hx)⟩
      refine legal_bind (legal_concatEach (P := Fresh 0) Fresh.writes fun r hr t' h' => ?_)
        fun roles t₃ h₃ hq₃ => legal_pure fun x hx => ?_
      · exact legal_expandRoleOn n g₀ 0 0 inside r [] t' (hb₁.continues (h₂.trans h'))
          (Graph.closed_zero _)
          ⟨Nat.zero_le _, (h₂.trans h').spans.hasRole (hplay.roles r hr)⟩
      · rcases List.mem_append.1 hx with hx | hx
        · exact (hq₂ x hx).writes _ _ _ h₃.writes
        · exact hq₃ x hx

theorem legal_expandPlaybook :
    ∀ (n : Nat) (inside : List Frame) (pb : Playbook) (t : Tape Expansion Moment),
    Began (.since g₀ 0) t.graph → (∀ p ∈ pb.plays, t.graph.HasPlay p) →
      Legal (.since g₀ 0) (watchExpandPlaybook site templater n inside pb) t
        fun xs g => ∀ x ∈ xs, Fresh 0 x g
  | 0, _, _, _, _, _ => legal_throw _
  | n + 1, inside, pb, t, hb, hp => by
    rw [watchExpandPlaybook]
    refine legal_bind (legal_entered (freshAll_writes (c := 0)) fun t₁ h₁ _ => ?_)
      fun result t₂ _ hresult => ?_
    · refine legal_concatEach (P := Fresh 0) Fresh.writes fun p hmem t₂ h₂ => ?_
      exact legal_expandPlay n _ p t₂ (hb.continues (h₁.trans h₂))
        ((h₁.trans h₂).spans.hasPlay (hp p hmem))
    · cases result with
      | ok xs => exact legal_pure (hresult xs rfl)
      | error e => exact legal_throw _
end

end Runlist

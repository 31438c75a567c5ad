import Runlist.Proofs.Graph.Change

/-!
# Chains of parents

From which tasks a task was expanded, and how a directive becomes one of them.

* `Graph.Climbs`: the tasks on the way from a task to one above it, nearest first.
* `ancestors_eq`: the ancestors of a task are those on the way to one without a parent.
* `taskOrigins_eq`: **the tasks around the origin of a task are its ancestors.**
* `adopt_spec`: a directive becomes the parent of the topmost tasks, and nothing else changes.
-/

namespace Runlist.Graph

variable {g g' g₀ g₁ g₂ : Graph} {x y z top directive : TaskId} {l l' : List TaskId}

/-! ## Ancestors -/

/-- **The way from a task to one above it**, over the parents, nearest first. -/
inductive Climbs (g : Graph) : TaskId → List TaskId → TaskId → Prop
  | here {x : TaskId} : Climbs g x [] x
  | up {x y z : TaskId} {l : List TaskId} :
      (g.task y).parent = some z → Climbs g z l x → Climbs g y (z :: l) x

theorem Climbs.trans (h : g.Climbs y l z) (h' : g.Climbs z l' x) : g.Climbs y (l ++ l') x := by
  induction h with
  | here => exact h'
  | up hp _ ih => exact .up hp (ih h')

/-- A parent is older. -/
theorem Sound.parent_lt (hs : g.Sound) (hx : g.HasTask x) (h : (g.task x).parent = some z) :
    z.index < x.index := by
  obtain ⟨hz, habove⟩ := (hs.tasks x hx).parent z h
  exact hs.index_lt hz (hs.origins.above_lt (hs.tasks x hx).origin habove)

theorem Climbs.has (hs : g.Sound) (h : g.Climbs y l x) (hy : g.HasTask y) : g.HasTask x := by
  induction h with
  | here => exact hy
  | up hp _ ih => exact ih ((hs.tasks _ hy).parent _ hp).1

theorem Climbs.le (hs : g.Sound) (h : g.Climbs y l x) (hy : g.HasTask y) : x.index ≤ y.index := by
  induction h with
  | here => exact le_rfl
  | up hp _ ih =>
    exact le_trans (ih ((hs.tasks _ hy).parent _ hp).1) (le_of_lt (hs.parent_lt hy hp))

theorem Climbs.keeps (hs : g.Sound) (k : g.Keeps g') (h : g.Climbs y l x) (hy : g.HasTask y) :
    g'.Climbs y l x := by
  induction h with
  | here => exact .here
  | up hp _ ih => exact .up ((k.task _ hy).parent _ hp) (ih ((hs.tasks _ hy).parent _ hp).1)

/-- The way to a task without a parent, with enough steps. -/
theorem climb_eq (hs : g.Sound) (h : g.Climbs y l x) (hy : g.HasTask y)
    (hroot : (g.task x).parent = none) {n : Nat} (hn : y.index < n) : g.climb n y = l := by
  induction h generalizing n with
  | here =>
    cases n with
    | zero => omega
    | succ n => rw [climb, hroot]
  | up hp _ ih =>
    cases n with
    | zero => omega
    | succ n =>
      have hlt := hs.parent_lt hy hp
      rw [climb, hp]
      simp only
      rw [ih ((hs.tasks _ hy).parent _ hp).1 hroot (by omega)]

theorem ancestors_eq (hs : g.Sound) (h : g.Climbs y l x) (hy : g.HasTask y)
    (hroot : (g.task x).parent = none) : g.ancestors y = l :=
  climb_eq hs h hy hroot hy

/-- The tasks around an origin, which itself counts, innermost first. -/
def taskOrigins (g : Graph) (o : OriginId) : List OriginId :=
  (g.lineage o).filter fun m => (g.origin m).kind == .task

/-- A task and the tasks around its parent. -/
theorem Sound.taskOrigins_parent (hs : g.Sound) (hy : g.HasTask y)
    (hp : (g.task y).parent = some z) :
    g.taskOrigins (g.task y).origin = (g.task y).origin :: g.taskOrigins (g.task z).origin := by
  obtain ⟨hz, habove⟩ := (hs.tasks y hy).parent z hp
  obtain ⟨hkind, before, after, hsplit, hbefore⟩ := List.find?_eq_some_iff_append.1 habove
  have hcons : g.lineage (g.task y).origin =
      ((g.task y).origin :: before) ++ (g.task z).origin :: after := by
    rw [lineage_cons, hsplit]; rfl
  rw [taskOrigins, taskOrigins, hcons, ← lineage_split hcons, List.filter_append,
    List.filter_cons_of_pos, List.filter_eq_nil_iff.2 fun m hm => by simpa using hbefore m hm]
  · rfl
  · rw [(hs.tasks y hy).kind]; rfl

/-- **The tasks around the origin of a task are its ancestors**, up to one with no task around
it. -/
theorem taskOrigins_eq (hs : g.Sound) (h : g.Climbs y l x) (hy : g.HasTask y)
    (hroot : g.above .task (g.task x).origin = none) :
    g.taskOrigins (g.task y).origin = (y :: l).map fun z => (g.task z).origin := by
  induction h with
  | here =>
    rw [taskOrigins, lineage_cons, List.filter_cons_of_pos, List.filter_eq_nil_iff.2]
    · rfl
    · exact List.find?_eq_none.1 hroot
    · rw [(hs.tasks _ hy).kind]; rfl
  | up hp _ ih => rw [hs.taskOrigins_parent hy hp, ih ((hs.tasks _ hy).parent _ hp).1 hroot]; rfl

/-- The parent of a task with no task around it. -/
theorem Sound.parent_none (hs : g.Sound) (hx : g.HasTask x)
    (h : g.above .task (g.task x).origin = none) : (g.task x).parent = none := by
  cases hp : (g.task x).parent with
  | none => rfl
  | some p =>
    rw [((hs.tasks x hx).parent p hp).2] at h; cases h

/-! ## Adoption -/

/-- The nearest task around the origin of a task is the directive. -/
structure Adoptable (g : Graph) (directive x : TaskId) : Prop where
  has : g.HasTask x
  above : g.above .task (g.task x).origin = some (g.task directive).origin

theorem Adoptable.keeps (hs : g.Sound) (k : g.Keeps g') (hd : g.HasTask directive)
    (h : g.Adoptable directive x) : g'.Adoptable directive x where
  has := k.hasTask h.has
  above := by
    rw [(k.task x h.has).origin, (k.task directive hd).origin,
      above_keeps k (hs.tasks x h.has).origin]
    exact h.above

theorem Adoptable.lt (hs : g.Sound) (hd : g.HasTask directive) (h : g.Adoptable directive x) :
    directive.index < x.index :=
  hs.index_lt hd (hs.origins.above_lt (hs.tasks x h.has).origin h.above)

/-- A task that may be adopted has no other parent. -/
theorem Adoptable.parent (hs : g.Sound) (hd : g.HasTask directive) (h : g.Adoptable directive x)
    {p : TaskId} (hp : (g.task x).parent = some p) : p = directive := by
  obtain ⟨hhas, habove⟩ := (hs.tasks x h.has).parent p hp
  rw [h.above] at habove
  exact hs.taskInj hhas hd (Option.some.inj habove).symm

/-- The topmost task of a chain is found. -/
theorem chainRoot_eq (hs : g.Sound) (hd : g.HasTask directive) (h : g.Climbs y l top)
    (hy : g.HasTask y) (ht : g.Adoptable directive top) {n : Nat} (hn : y.index < n) :
    g.chainRoot directive n y = top := by
  induction h generalizing n with
  | here =>
    cases n with
    | zero => omega
    | succ n =>
      rw [chainRoot]
      split
      · rename_i p hp
        rw [if_pos (ht.parent hs hd hp)]
      · rfl
  | @up top y z l hp hz ih =>
    cases n with
    | zero => omega
    | succ n =>
      have hhas := ((hs.tasks y hy).parent z hp).1
      have hlt := hs.parent_lt hy hp
      have hle := hz.le hs hhas
      have hd := ht.lt hs hd
      rw [chainRoot, hp]
      simp only
      rw [if_neg (by rintro rfl; omega), ih hhas ht (by omega)]

/-- **Some tasks that are new since a graph get the directive as their parent.** -/
structure Adopts (g₀ g g' : Graph) (directive : TaskId) : Prop where
  origins : g'.origins = g.origins
  plays : g'.plays = g.plays
  roles : g'.roles = g.roles
  size : g'.tasks.size = g.tasks.size
  task : ∀ x, g'.task x = g.task x ∨
    ¬ g₀.HasTask x ∧ (g.task x).parent = none ∧
    g'.task x = { g.task x with parent := some directive }

namespace Adopts

theorem refl (g₀ g : Graph) (directive : TaskId) : Adopts g₀ g g directive :=
  ⟨rfl, rfl, rfl, rfl, fun _ => Or.inl rfl⟩

theorem trans (h : Adopts g₀ g g₁ directive) (h' : Adopts g₀ g₁ g₂ directive) :
    Adopts g₀ g g₂ directive where
  origins := h'.origins.trans h.origins
  plays := h'.plays.trans h.plays
  roles := h'.roles.trans h.roles
  size := h'.size.trans h.size
  task x := by
    rcases h.task x with h₁ | ⟨hnew, hnone, h₁⟩
    · rw [← h₁]; exact h'.task x
    · rcases h'.task x with h₂ | ⟨-, hnone', -⟩
      · exact Or.inr ⟨hnew, hnone, h₂.trans h₁⟩
      · rw [h₁] at hnone'; cases hnone'

theorem stays (h : Adopts g₀ g g' directive) : g.Stays g' where
  origins_le := by rw [h.origins]
  tasks_le := by rw [h.size]
  plays_le := by rw [h.plays]
  roles_le := by rw [h.roles]
  origin o _ := by rw [origin, origin, h.origins]
  task x _ := by
    rcases h.task x with he | ⟨-, hnone, he⟩
    · rw [he]; exact ⟨rfl, fun _ h => h, fun _ h => h⟩
    · rw [he]; exact ⟨rfl, fun _ h =>
        (Option.some_ne_none _ (h.symm.trans hnone)).elim, fun _ h => h⟩
  play p _ := by rw [play, play, h.plays]
  role r _ := by rw [role, role, h.roles]; exact StaysRole.refl _

/-- No task that was there gets another parent. -/
theorem grows (h : Adopts g₀ g g' directive) (hg : g₀.Grows g) : g₀.Grows g' where
  toStays := hg.toStays.trans h.stays
  parent x hx := by
    rcases h.task x with he | ⟨hnew, -, -⟩
    · rw [he]; exact hg.parent x hx
    · exact absurd hx hnew

end Adopts

/-- The directive becomes the parent of a task. -/
theorem Sound.setParent (hs : g.Sound) (hd : g.HasTask directive) (ht : g.Adoptable directive top)
    (hnone : (g.task top).parent = none) :
    (g.modifyTask top fun t => { t with parent := some directive }).Sound := by
  have hk : KeepsTask (g.task top) { g.task top with parent := some directive } :=
    ⟨rfl, rfl, rfl, fun _ h => (Option.some_ne_none _ (h.symm.trans hnone)).elim⟩
  have k : g.Keeps (g.modifyTask top fun t => { t with parent := some directive }) :=
    keeps_modifyTask hk
  have h := hs.tasks top ht.has
  refine hs.modifyTask hk fun _ => ?_
  refine ⟨?_, ?_, fun y hy => ?_, fun p hp => ?_, fun r hr => ?_,
    fun p hp => ?_, fun c hc => ?_, ?_, ?_⟩
  · rw [(k.task top ht.has).origin]; exact k.hasOrigin h.origin
  · rw [(k.task top ht.has).origin]; exact h.kind
  · rw [(k.task top ht.has).origin, (k.task y (lt_trans hy ht.has)).origin]; exact h.order y hy
  · rw [task_modifyTask_self ht.has] at hp
    cases hp
    exact ⟨k.hasTask hd, (ht.keeps hs k hd).above⟩
  · rw [(k.task top ht.has).role] at hr; exact h.role r hr
  · rw [(k.task top ht.has).play] at hp; exact h.play p hp
  · rw [(k.task top ht.has).origin, (k.task top ht.has).role, (k.task top ht.has).play]
    rw [task_modifyTask_self ht.has] at hc
    obtain ⟨hparent, hplaced⟩ := h.block c hc
    exact ⟨(k.task c hplaced.has).parent top hparent, hplaced.keeps k hs⟩
  · rw [task_modifyTask_self ht.has]; exact h.vars
  · rw [task_modifyTask_self ht.has]; exact h.raw

/-- The topmost task of one chain is adopted. -/
theorem adoptOne_spec (hs : g.Sound) (hd : g.HasTask directive) (h : g.Climbs y l top)
    (hy : g.HasTask y) (ht : g.Adoptable directive top) (hnew : ¬ g₀.HasTask top) :
    (g.adoptOne directive y).Sound ∧ Adopts g₀ g (g.adoptOne directive y) directive ∧
      ((g.adoptOne directive y).task top).parent = some directive := by
  have hroot := chainRoot_eq hs hd h hy ht hy
  unfold adoptOne
  rw [hroot]
  simp only
  cases hp : (g.task top).parent with
  | none =>
    have hne : top ≠ directive := by
      rintro rfl
      have := ht.lt hs hd
      omega
    rw [if_pos ⟨hne, rfl⟩]
    refine ⟨hs.setParent hd ht hp, ⟨rfl, rfl, rfl, Array.size_modify .., fun x => ?_⟩, ?_⟩
    · by_cases hx : x = top
      · subst hx
        exact Or.inr ⟨hnew, hp, task_modifyTask_self ht.has⟩
      · exact Or.inl (task_modifyTask_of_ne hx)
    · rw [task_modifyTask_self ht.has]
  | some p =>
    rw [if_neg (by rintro ⟨-, h⟩; cases h)]
    refine ⟨hs, .refl _ _ _, ?_⟩
    rw [hp, ht.parent hs hd hp]

/-- **The directive becomes the parent of the topmost tasks of some chains**, all of them new since
a graph, and nothing else changes. -/
theorem adopt_spec (hs : g.Sound) (hd : g.HasTask directive) (ids : List TaskId)
    (h : ∀ y ∈ ids, g.HasTask y ∧ ∃ l top, g.Climbs y l top ∧ g.Adoptable directive top ∧
      ¬ g₀.HasTask top) :
    (g.adopt ids directive).Sound ∧ Adopts g₀ g (g.adopt ids directive) directive ∧
      ∀ y ∈ ids, ∀ l top, g.Climbs y l top → g.Adoptable directive top → ¬ g₀.HasTask top →
        ((g.adopt ids directive).task top).parent = some directive := by
  induction ids generalizing g with
  | nil => exact ⟨hs, .refl _ _ _, fun y hy => by cases hy⟩
  | cons y ids ih =>
    obtain ⟨hy, _, _, hfirst, hadoptable, hfresh⟩ := h y List.mem_cons_self
    obtain ⟨hs₁, h₁, -⟩ := adoptOne_spec hs hd hfirst hy hadoptable hfresh
    have k := h₁.stays.keeps
    obtain ⟨hs₂, h₂, hrest⟩ := ih hs₁ (k.hasTask hd) fun z hz => by
      obtain ⟨hhas, l, top, hclimb, ht, hnew⟩ := h z (List.mem_cons_of_mem _ hz)
      exact ⟨k.hasTask hhas, l, top, hclimb.keeps hs k hhas, ht.keeps hs k hd, hnew⟩
    refine ⟨hs₂, h₁.trans h₂, fun z hz l top hclimb ht hnew => ?_⟩
    rcases List.mem_cons.1 hz with rfl | hz
    · have hparent := (adoptOne_spec hs hd hclimb hy ht hnew).2.2
      exact (h₂.stays.task top (k.hasTask ht.has)).parent directive hparent
    · obtain ⟨hhas, -⟩ := h z (List.mem_cons_of_mem _ hz)
      exact hrest z hz l top (hclimb.keeps hs k hhas) (ht.keeps hs k hd) hnew

end Runlist.Graph

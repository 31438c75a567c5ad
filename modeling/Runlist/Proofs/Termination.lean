import Mathlib.Data.Finset.Card
import Mathlib.Data.List.ProdSigma
import Runlist.Proofs.Outcome.Settled
import Runlist.Proofs.Outcome.Supply
import Runlist.Proofs.Transparency

/-!
# Every expansion ends

Every directive loads its target afresh, under any name and any spelling. A target is told apart by
its key, though, and of a tree of files there are finitely many: a file that is read has one of the
tree's own paths, and a role that is read has the parameters that one of finitely many tasks has in
one of finitely many scopes. So the targets that are not open yet get fewer with every directive,
and each of them adds to the nesting no more than the blocks of tasks and a path of dependencies do.

* `Supply.keys`: the keys that are met. `file_mem_keys`, `role_mem_keys`: **every target that can be
  read has one of them.** `card_keys`: how many there are.
* `room`: how many of them are not open yet.
* `Supply.nesting`: how much one more open target adds to the nesting.
* `task_settles`, `role_settles`, `play_settles`: the outcome of a node settles by a bound that the
  room gives.
* `answer_settles`: **every answer settles by the bound that the program gives itself.**
* `reply_settles`: **every question is answered, at any bound that is large enough.**
-/

namespace Runlist

variable {site : Site} {t : Templater} {u : Supply} {opened : List String}

/-! ## Keys -/

namespace Supply

/-- Where the tasks of a supply can stand. -/
def scopes (u : Supply) : List Scope :=
  (none :: u.plays.map some).flatMap fun play => (none :: u.heads.map some).flatMap fun role =>
    [⟨play, role, true⟩, ⟨play, role, false⟩]

theorem scope_mem {place : Place} (h : place.Within u site) : place.scope ∈ u.scopes := by
  obtain ⟨play, role, listed⟩ := place
  have hplay : play.map PlayPlace.head ∈ none :: u.plays.map some := by
    cases play with
    | none => exact List.mem_cons_self
    | some p => exact List.mem_cons_of_mem _ (List.mem_map_of_mem (h.play p rfl).head)
  have hrole : role.map (·.toRoleHead) ∈ none :: u.heads.map some := by
    cases role with
    | none => exact List.mem_cons_self
    | some r => exact List.mem_cons_of_mem _ (List.mem_map_of_mem (h.role r rfl).1)
  refine List.mem_flatMap.2 ⟨_, hplay, List.mem_flatMap.2 ⟨_, hrole, ?_⟩⟩
  cases listed with
  | true => exact List.mem_cons_self
  | false => exact List.mem_cons_of_mem _ List.mem_cons_self

theorem length_scopes (u : Supply) :
    u.scopes.length ≤ (u.plays.length + 1) * ((u.heads.length + 1) * 2) := by
  have hroles : ∀ play : Option PlayHead, ((none :: u.heads.map some).flatMap fun role =>
      [(⟨play, role, true⟩ : Scope), ⟨play, role, false⟩]).length ≤ (u.heads.length + 1) * 2 := by
    intro play
    refine le_trans (length_flatMap_le (k := 2) fun role _ => le_rfl) ?_
    rw [List.length_cons, List.length_map]
  refine le_trans (length_flatMap_le fun play _ => hroles play) ?_
  rw [List.length_cons, List.length_map]

open Classical in
/-- The key of the role that a declared task asks for in a scope, if it asks for one. -/
noncomputable def roleKey? (site : Site) (t : Templater) (scope : Scope) (d : TaskDeclaration)
    (action : String) : Option String :=
  if h : ∃ params, site.Includes t scope d RoleInclude.ofJson "name" action params then
    some ((Target.role h.choose.name h.choose.selection.tasksFile).key site.disk)
  else none

/-- A task asks for one role at most in a scope. -/
theorem roleKey?_eq {scope : Scope} {d : TaskDeclaration} {action : String} {params : RoleInclude}
    (h : site.Includes t scope d RoleInclude.ofJson "name" action params) :
    roleKey? site t scope d action =
      some ((Target.role params.name params.selection.tasksFile).key site.disk) := by
  have hasks : ∃ params, site.Includes t scope d RoleInclude.ofJson "name" action params :=
    ⟨params, h⟩
  rw [roleKey?, dif_pos hasks, hasks.choose_spec.unique h]

/-- **The keys that are met**: those of the files of the tree, and those of the roles that tasks ask
for. -/
noncomputable def keys (u : Supply) (site : Site) (t : Templater) : Finset String :=
  ((site.disk.tree.files.map fun f => "/" ++ "/".intercalate f.1) ++
    (u.scopes ×ˢ (u.tasks ×ˢ Action.roleIncludes)).filterMap fun (scope, d, action) =>
      roleKey? site t scope d action).toFinset

/-- There are no more keys than files, and tasks with their actions in all scopes. -/
theorem card_keys (u : Supply) (site : Site) (t : Templater) : (u.keys site t).card ≤
    site.disk.tree.files.length + u.scopes.length *
      (u.tasks.length * Action.roleIncludes.length) := by
  refine le_trans (List.toFinset_card_le _) ?_
  rw [List.length_append, List.length_map, ← List.length_product, ← List.length_product]
  exact Nat.add_le_add_left (List.length_filterMap_le _ _) _

end Supply

/-- **A file that can be read** has the key of a file of the tree, however its path is spelled. -/
theorem file_mem_keys {path : FilePath} {text : String} (h : site.disk.read path = .ok text) :
    (Target.file path).key site.disk ∈ u.keys site t := by
  refine List.mem_toFinset.2 (List.mem_append_left _ ?_)
  unfold Disk.read Disk.node at h
  cases hr : site.disk.resolve path with
  | error e => simp [hr] at h
  | ok names =>
    have hkey : (Target.file path).key site.disk = "/" ++ "/".intercalate names := by
      simp only [Target.key, Disk.canonical?, hr, Option.getD_some]
    cases hat : site.disk.tree.at? names with
    | none => simp [hr, hat] at h
    | some node =>
      cases node with
      | dir entries => simp [hr, hat] at h
      | file content =>
        rw [hkey]
        exact List.mem_map.2 ⟨_, FileTree.mem_files hat, rfl⟩

theorem readTasks_key {path : FilePath} {ds : List TaskDeclaration}
    (h : site.readTasks path = .ok ds) : (Target.file path).key site.disk ∈ u.keys site t := by
  unfold Site.readTasks at h
  cases hread : site.disk.read path with
  | error e => rw [hread] at h; cases h
  | ok text => exact file_mem_keys hread

theorem readPlays_key {path : FilePath} {around : List Origin} {ps : List PlayNode}
    (h : site.readPlays path around = .ok ps) :
    (Target.file path).key site.disk ∈ u.keys site t := by
  obtain ⟨ds, hds, -⟩ := except_bind_ok.1 h
  unfold Site.readPlaybook at hds
  cases hread : site.disk.read path with
  | error e => rw [hread] at hds; cases hds
  | ok text => exact file_mem_keys hread

section Params

variable {α : Type} {read : Json → Except ShapeError α} {textKey action : String}
  {x : TaskNode} {params : α}

/-- The parameters of a task are those that its declaration has in its scope. -/
theorem includes_of_params (hreal : ∀ head ∈ x.place.roles, head.Real site) {d : TaskDeclaration}
    (hvars : d.vars = x.vars) (hraw : d.raw = x.raw)
    (h : x.params site t read textKey action = .ok params) :
    site.Includes t x.place.scope d read textKey action params := by
  obtain ⟨j, hj, hread⟩ := except_bind_ok.1 h
  rw [mapError_ok] at hread
  refine ⟨?_⟩
  rw [hvars, hraw]
  unfold TaskNode.value at hj
  split at hj
  · rename_i text hget
    obtain ⟨vars, hresolve, hj⟩ := except_bind_ok.1 hj
    rw [mapError_ok] at hresolve
    refine ⟨_, vars, j, hget, (Place.resolve_iff hreal).1 hresolve, ?_, hread⟩
    cases ht : t.evaluate text vars with
    | error e => rw [ht] at hj; cases hj
    | ok rendered =>
      rw [ht] at hj
      cases hj
      rw [includeValue, ht]; rfl
  · rename_i params hget
    obtain ⟨vars, hresolve, hj⟩ := except_bind_ok.1 hj
    rw [mapError_ok] at hresolve
    cases hj
    exact ⟨_, vars, _, hget, (Place.resolve_iff hreal).1 hresolve, rfl, hread⟩
  · cases hj

/-- To find the parameters of a directive uses up no bound. -/
theorem params_final (hreal : ∀ head ∈ x.place.roles, head.Real site)
    (read : Json → Except ShapeError α) (textKey action : String) :
    Final (x.params site t read textKey action) := by
  have hvars : Final ((x.place.resolve site x.vars).mapError ExpandError.load) :=
    .load (resolve_bounded hreal _ _)
  refine Final.bind ?_ fun j => ?_
  · unfold TaskNode.value
    split
    · rename_i text hget
      refine hvars.bind fun vars => ?_
      cases t.evaluate text vars with
      | ok rendered => exact .ok _
      | error e => rintro _ ⟨⟩ h; exact h
    · exact hvars.bind fun vars => .ok _
    · rintro _ ⟨⟩ h; exact h
  · intro err herr
    obtain ⟨e, -, rfl⟩ := mapError_error.1 herr
    exact id

end Params

/-- **A role that a task asks for** has one of the keys. -/
theorem role_mem_keys {m : Nat} {x : TaskNode} (hx : x.Within u site m) {action : String}
    (haction : action ∈ Action.roleIncludes) {params : RoleInclude}
    (h : x.params site t RoleInclude.ofJson "name" action = .ok params) :
    (Target.role params.name params.selection.tasksFile).key site.disk ∈ u.keys site t := by
  cases hx with
  | mk hplace hdeclared _ =>
    obtain ⟨d, hd, hvars, hraw⟩ := hdeclared
    have hkey := Supply.roleKey?_eq (includes_of_params hplace.real hvars hraw h)
    refine List.mem_toFinset.2
      (List.mem_append_right _ (List.mem_filterMap.2 ⟨(x.place.scope, d, action), ?_, hkey⟩))
    exact List.mem_product.2 ⟨Supply.scope_mem hplace, List.mem_product.2 ⟨hd, haction⟩⟩

/-! ## Room -/

/-- How many of some keys are not open. -/
def room (keys : Finset String) (opened : List String) : Nat :=
  (keys.filter fun key => key ∉ opened).card

/-- A key that is opened leaves less room. -/
theorem room_lt {keys : Finset String} {key : String} (hkey : key ∈ keys) (hnot : key ∉ opened) :
    room keys (opened ++ [key]) < room keys opened := by
  refine Finset.card_lt_card ⟨fun k hk => ?_, fun hsub => ?_⟩
  · rw [Finset.mem_filter] at hk ⊢
    exact ⟨hk.1, fun hopened => hk.2 (List.mem_append_left _ hopened)⟩
  · have hopen := hsub (Finset.mem_filter.2 ⟨hkey, hnot⟩)
    exact (Finset.mem_filter.1 hopen).2 (List.mem_append_right _ (List.mem_singleton.2 rfl))

/-- A step inside a target settles if it does where the target is open. -/
theorem inside_settles {α : Type} {N : Nat} {target : Target}
    {step : Nat → List String → Except ExpandError α}
    (h : target.key site.disk ∉ opened → SettlesBy N fun n =>
      step n (opened ++ [target.key site.disk])) :
    SettlesBy N fun n => site.inside opened target (step n) := by
  by_cases hopen : target.key site.disk ∈ opened
  · simp only [inside_opened hopen]
    exact .const (.cyclic _)
  · simp only [inside_closed hopen]
    exact h hopen

/-- How much one more open target adds to the nesting: the tasks of nested blocks, the roles on a
path of dependencies, and a play in its playbook. -/
def Supply.nesting (u : Supply) (site : Site) : Nat := u.depth + site.declaredNames.length + 4

/-- The bound by which an outcome settles while some targets are open. -/
noncomputable def Supply.bound (u : Supply) (site : Site) (t : Templater)
    (opened : List String) : Nat :=
  room (u.keys site t) opened * u.nesting site

/-- Where there is less room, the bound is smaller by the nesting of one target. -/
theorem bound_of_room {opened' : List String}
    (h : room (u.keys site t) opened' < room (u.keys site t) opened) :
    u.bound site t opened' + u.nesting site ≤ u.bound site t opened := by
  have hroom : (room (u.keys site t) opened' + 1) * u.nesting site ≤
      room (u.keys site t) opened * u.nesting site := Nat.mul_le_mul_right _ h
  rw [Nat.succ_mul] at hroom
  exact hroom

/-- With more targets open there is no more room. -/
theorem bound_le (opened : List String) (key : String) :
    u.bound site t (opened ++ [key]) ≤ u.bound site t opened := by
  refine Nat.mul_le_mul_right _ (Finset.card_le_card fun k hk => ?_)
  rw [Finset.mem_filter] at hk ⊢
  exact ⟨hk.1, fun hopened => hk.2 (List.mem_append_left _ hopened)⟩

/-! ## Tasks -/

section Tasks

variable {N m : Nat} (hu : u.Covers site)
include hu

/-- A directive that includes a file settles if the tasks of the file do where it is open. -/
theorem fileOutcome_settles {x : TaskNode} (hx : x.Within u site m) (action : String)
    {outcome : Nat → List String → TaskNode → Except ExpandError (List Leaf)}
    (h : ∀ opened', room (u.keys site t) opened' < room (u.keys site t) opened →
      ∀ c : TaskNode, c.Within u site u.depth → SettlesBy N fun n => outcome n opened' c) :
    SettlesBy N fun n => x.fileOutcome site t (outcome n) opened action := by
  cases hx with
  | mk hplace _ _ =>
    have hparams :=
      (params_final (t := t) hplace.real TaskInclude.ofJson "file" action).within x.chain action
    unfold TaskNode.fileOutcome
    refine SettlesBy.after hparams fun params _ =>
      SettlesBy.within (inside_settles fun hclosed => ?_) _ _
    refine SettlesBy.load (readTasks_bounded site _) fun ds hds => .concatEach fun c hc => ?_
    obtain ⟨d, hd, rfl⟩ := List.mem_map.1 hc
    exact h _ (room_lt (readTasks_key hds) hclosed) _ ((hu.tasks _ ds hds d hd).node hplace _ _)

/-- A directive that includes a role settles if the role does where it is open. -/
theorem roleOutcome_settles {x : TaskNode} (hx : x.Within u site m) {action : String}
    (haction : action ∈ Action.roleIncludes)
    {outcome : Nat → List String → RoleNode → Except ExpandError (List Leaf)}
    (h : ∀ opened', room (u.keys site t) opened' < room (u.keys site t) opened →
      ∀ r : RoleNode, r.Within u site → SettlesBy N fun n => outcome n opened' r) :
    SettlesBy N fun n => x.roleOutcome site t (outcome n) opened action := by
  have hkey := @role_mem_keys site t u m x hx action haction
  cases hx with
  | mk hplace _ _ =>
    have hparams :=
      (params_final (t := t) hplace.real RoleInclude.ofJson "name" action).within x.chain action
    unfold TaskNode.roleOutcome
    refine SettlesBy.after hparams fun params hparams =>
      SettlesBy.within (inside_settles fun hclosed => ?_) _ _
    refine SettlesBy.load (readNamed_bounded site _ _) fun role hrole => ?_
    exact h _ (room_lt (hkey (mapError_ok.1 hparams)) hclosed) _
      (readNamed_within hu hrole hplace.play false _)

/-- **A task settles** if tasks and roles do with less room; each block around it adds one to the
bound. -/
theorem task_settles
    (htasks : ∀ opened', room (u.keys site t) opened' < room (u.keys site t) opened →
      ∀ c : TaskNode, c.Within u site u.depth → SettlesBy N fun n => taskOutcome site t n opened' c)
    (hroles : ∀ opened', room (u.keys site t) opened' < room (u.keys site t) opened →
      ∀ r : RoleNode, r.Within u site → SettlesBy N fun n => roleOutcome site t n opened' [] r)
    {x : TaskNode} (hx : x.Within u site m) : SettlesBy (N + m) fun n =>
      taskOutcome site t n opened x := by
  -- along the blocks; a directive has no block
  induction hx with
  | @mk m x hplace hdeclared hblock ih =>
    cases hb : x.block with
    | cons first rest =>
      rw [hb] at ih
      refine SettlesBy.succ (SettlesBy.concatEach ih) fun n => ?_
      rw [taskOutcome, hb]
    | nil =>
      have hx := TaskNode.Within.mk hplace hdeclared hblock
      have hle : N + 1 ≤ N + (m + 1) := by omega
      refine SettlesBy.mono ?_ hle
      cases ht : x.action? Action.taskIncludes with
      | some action =>
        refine SettlesBy.succ (fileOutcome_settles hu hx action htasks) fun n => ?_
        rw [taskOutcome, hb]
        simp only [ht]
      | none =>
        cases hr : x.action? Action.roleIncludes with
        | some action =>
          have haction : action ∈ Action.roleIncludes := List.mem_of_find?_eq_some hr
          refine SettlesBy.succ (roleOutcome_settles hu hx haction hroles) fun n => ?_
          rw [taskOutcome, hb]
          simp only [ht, hr]
        | none =>
          refine SettlesBy.succ (SettlesBy.const (.ok [x.leaf])) fun n => ?_
          rw [taskOutcome, hb]
          simp only [ht, hr]
          rfl

/-- **A role at the end of a path** settles if tasks do; each role that may follow on the path adds
one to the bound. -/
theorem role_settles
    (htasks : ∀ c : TaskNode, c.Within u site u.depth → SettlesBy N fun n =>
      taskOutcome site t n opened c)
    {names path : List String} {k : Nat} {r : RoleNode} (hr : r.Within u site)
    (hpath : site.OnPath names path k r.head.name) : SettlesBy (N + k) fun n =>
      roleOutcome site t n opened path r := by
  -- on the names that are not on the path yet
  induction k generalizing path r with
  | zero =>
    obtain ⟨m, hm⟩ := hpath.pos
    cases hm
  | succ k ih =>
    refine SettlesBy.succ (o := fun n => do
      let path ← (enterName path r.head.name).mapError .load
      let direct ← (r.dependencies site).mapError .load
      let below ← concatEach (roleOutcome site t n opened path) direct
      let own ← concatEach (taskOutcome site t n opened) r.tasks
      return below ++ own) ?_ fun n => by rw [roleOutcome]
    refine SettlesBy.load (enterName_bounded path r.head.name) fun path' henter => ?_
    obtain ⟨hname, rfl⟩ := enterName_ok henter
    refine SettlesBy.load (dependencies_bounded site r) fun direct hdirect => ?_
    refine SettlesBy.bind (.concatEach fun d hd => ?_) fun below => ?_
    · rw [RoleNode.dependencies, mapM_ok] at hdirect
      obtain ⟨⟨name, trail⟩, href, hread⟩ := exists_left hdirect hd
      obtain ⟨role, hrole, hd⟩ := except_bind_ok.1 hread
      cases hd
      have hdep : site.Leads r.head.name role.name := by
        rw [Site.Leads, ← hr.real, ← hr.references, (readNamed_iff.1 hrole).1]
        exact List.mem_map_of_mem href
      exact ih (readNamed_within hu hrole hr.play false trail) (hpath.step hname hdep)
    · refine SettlesBy.bind (.concatEach fun c hc => ?_) fun own => .const (.ok _)
      exact (htasks c (hr.tasks c hc)).mono (Nat.le_add_right _ _)

/-- **Tasks and roles settle**, whatever is open. -/
theorem tasks_roles_settle (t : Templater) (opened : List String) :
    (∀ x : TaskNode, x.Within u site u.depth →
      SettlesBy (u.bound site t opened + u.depth) fun n => taskOutcome site t n opened x) ∧
    ∀ r : RoleNode, r.Within u site →
      SettlesBy (u.bound site t opened + u.depth + (site.declaredNames.length + 2)) fun n =>
        roleOutcome site t n opened [] r := by
  -- a directive opens one more of the keys, which leaves less room
  induction hroom : room (u.keys site t) opened
    using Nat.strong_induction_on generalizing opened with
  | _ k ih =>
    subst hroom
    have hnesting : u.nesting site = u.depth + site.declaredNames.length + 4 := rfl
    have htasks : ∀ x : TaskNode, x.Within u site u.depth →
        SettlesBy (u.bound site t opened + u.depth) fun n => taskOutcome site t n opened x := by
      intro x hx
      refine task_settles hu (fun opened' hlt c hc => ?_) (fun opened' hlt r hr => ?_) hx
      · have hbound := bound_of_room hlt
        exact ((ih _ hlt opened' rfl).1 c hc).mono (by omega)
      · have hbound := bound_of_room hlt
        exact ((ih _ hlt opened' rfl).2 r hr).mono (by omega)
    exact ⟨htasks, fun r hr => role_settles hu htasks hr (.start site r.head.name le_rfl)⟩

/-! ## Plays -/

omit hu in
/-- A playbook settles if its plays do where it is open. -/
theorem playbook_settles_of {pb : PlaybookNode} (h : (Target.file pb.path).key site.disk ∉ opened →
    ∀ p ∈ pb.plays, SettlesBy N fun n =>
      playOutcome site t n (opened ++ [(Target.file pb.path).key site.disk]) p) :
    SettlesBy (N + 1) fun n => playbookOutcome site t n opened pb := by
  have hinside : SettlesBy N fun n => site.inside opened (.file pb.path) fun opened =>
      concatEach (playOutcome site t n opened) pb.plays :=
    inside_settles fun hclosed => .concatEach (h hclosed)
  exact hinside.succ fun n => by rw [playbookOutcome]

/-- **A play settles**, whatever is open. -/
theorem play_settles (t : Templater) (opened : List String) {p : PlayNode} (hp : p.Within u site) :
    SettlesBy (u.bound site t opened + u.depth + site.declaredNames.length + 3) fun n =>
      playOutcome site t n opened p := by
  induction hroom : room (u.keys site t) opened
    using Nat.strong_induction_on generalizing opened p with
  | _ k ih =>
    subst hroom
    obtain ⟨htasks, hroles⟩ := tasks_roles_settle hu t opened
    cases htarget : p.target with
    | none =>
      refine SettlesBy.succ (o := fun n => do
        let tasks ← concatEach (taskOutcome site t n opened) p.tasks
        let roles ← concatEach (roleOutcome site t n opened []) p.roles
        return tasks ++ roles) ?_ fun n => by rw [playOutcome, htarget]
      refine SettlesBy.bind (.concatEach fun x hx => ?_) fun tasks => ?_
      · exact (htasks x (hp.tasks x hx)).mono (by omega)
      · exact (SettlesBy.concatEach fun r hr => hroles r (hp.roles r hr)).bind
          fun roles => .const (.ok _)
    | some target =>
      refine SettlesBy.succ (o := fun n => (do
        let plays ← (site.readPlays (site.root.join target) p.trail).mapError .load
        playbookOutcome site t n opened ⟨site.root.join target, plays⟩ :
          Except ExpandError (List Leaf)).mapError
          (.within p.trail.reverse (site.root.join target).text)) ?_ fun n => by
        rw [playOutcome, htarget]
      refine SettlesBy.within
        (SettlesBy.load (readPlays_bounded site _ _) fun plays hplays => ?_) _ _
      refine playbook_settles_of fun hclosed q hq => ?_
      have hlt := room_lt (readPlays_key (u := u) (t := t) hplays) hclosed
      have hbound := bound_of_room hlt
      have hnesting : u.nesting site = u.depth + site.declaredNames.length + 4 := rfl
      have hq := readPlays_within hu (hp.target target htarget) hplays q hq
      exact (ih _ hlt _ hq rfl).mono (by omega)

/-- **A playbook settles**, whatever is open. -/
theorem playbook_settles (t : Templater) (opened : List String) {pb : PlaybookNode}
    (hp : ∀ p ∈ pb.plays, p.Within u site) :
    SettlesBy (u.bound site t opened + u.depth + site.declaredNames.length + 4) fun n =>
      playbookOutcome site t n opened pb := by
  refine playbook_settles_of fun _ p h => (play_settles hu t _ (hp p h)).mono ?_
  have hbound : u.bound site t (opened ++ [(Target.file pb.path).key site.disk]) ≤
      u.bound site t opened := bound_le ..
  omega

end Tasks

/-! ## The bound of the program -/

/-- The files and the roles that tasks ask for are no more than the bound on targets says. -/
theorem room_supply (site : Site) (s : Store) (t : Templater) (opened : List String) :
    room ((site.supply s).keys site t) opened ≤ targetBound site s := by
  have hscopes :
      (site.supply s).scopes.length ≤ (playBound site s + 1) * ((headBound site s + 1) * 2) := by
    refine le_trans (Supply.length_scopes _) (Nat.mul_le_mul ?_ (Nat.mul_le_mul_right 2 ?_))
    · exact Nat.succ_le_succ (length_supply_plays site s)
    · exact Nat.succ_le_succ (length_supply_heads site s)
  refine le_trans (Finset.card_filter_le _ _) (le_trans (Supply.card_keys _ _ _) ?_)
  rw [length_supply_tasks]
  exact Nat.add_le_add_left (Nat.mul_le_mul_right _ hscopes) _

/-- **The program's bound on nested expansions is large enough**, whatever is open. -/
theorem nesting_le_expansionBound (site : Site) (s : Store) (t : Templater) (opened : List String) :
    (site.supply s).bound site t opened + (site.supply s).nesting site ≤ expansionBound site s := by
  have hnames : site.declaredNames.length + 1 ≤ dependencyBound site s := by
    rw [dependencyBound, roleNames, List.length_append]
    exact Nat.succ_le_succ (Nat.le_add_left _ _)
  have hnesting : (site.supply s).nesting site ≤ taskBound site s + dependencyBound site s + 3 := by
    show taskBound site s + site.declaredNames.length + 4 ≤ _
    omega
  rw [Supply.bound, ← Nat.succ_mul]
  exact Nat.mul_le_mul (Nat.succ_le_succ (room_supply site s t opened)) hnesting

/-! ## Questions -/

section Questions

variable {s : Store} {q : Question}

/-- **The answer on the documents settles** by the bound that the program gives itself. -/
theorem answer_settles (hordered : site.disk.tree.Ordered) (hs : s.graph.Sound)
    (hf : Faithful site s) (hq : q.Valid s.graph) (t : Templater) (opened : List String) :
    SettlesBy (expansionBound site s) fun n => q.answer site t n opened s.graph := by
  have hreal : ∀ r, s.graph.HasRole r → (s.graph.namedHead r).Real site :=
    fun r hr => hf.namedReal hordered hr
  have hu := supply_covers site s
  have hg := Graph.from_supply hs hreal
  have hbound := nesting_le_expansionBound site s t opened
  have hnesting : (site.supply s).nesting site =
    (site.supply s).depth + site.declaredNames.length + 4 := rfl
  obtain ⟨htasks, hroles⟩ := tasks_roles_settle hu t opened
  cases q with
  | vars p x =>
    have hroles : ∀ head ∈ (s.graph.defaultRoles p x).map s.graph.namedHead, head.Real site := by
      intro head hhead
      obtain ⟨r, hr, rfl⟩ := List.mem_map.1 hhead
      exact hreal r (hasRole_defaultRoles hs hq.1 hq.2 r hr)
    exact SettlesBy.load (resolve_bounded hroles _ _) fun vars _ => .const (.ok _)
  | taskVars x =>
    exact SettlesBy.load (resolve_bounded (hf.placeReal hordered hs hq) _ _)
      fun vars _ => .const (.ok _)
  | defaultVars r =>
    exact SettlesBy.load (layers_bounded (hreal r hq)) fun heads _ => .const (.ok _)
  | dependencies r =>
    exact SettlesBy.load (layers_bounded (hreal r hq)) fun heads _ => .const (.ok _)
  | task x => exact ((htasks _ (hg.taskNode_within hq)).mono (by omega)).map _
  | tasks xs =>
    refine SettlesBy.map (.concatEach fun x hx => ?_) _
    exact (htasks x (hg.taskNodes_within hq x hx)).mono (by omega)
  | role r => exact ((hroles _ (hg.roleNode_within hq)).mono (by omega)).map _
  | play p => exact ((play_settles hu t opened (hg.playNode_within hq)).mono (by omega)).map _
  | playbook pb =>
    refine ((playbook_settles hu t opened fun node hnode => ?_).mono (by omega)).map _
    obtain ⟨p, hp, rfl⟩ := List.mem_map.1 hnode
    exact hg.playNode_within (hq p hp)

/-- What is seen of an answer that settles settles by the same bound. -/
theorem reply_settled (hordered : site.disk.tree.Ordered) (hs : s.graph.Sound)
    (hf : Faithful site s) (hq : q.Valid s.graph) (t : Templater) (opened : List String) :
    ∃ reply, (∀ err text, reply = .error (err, text) → ¬ err.Exhausted) ∧
      ∀ n, expansionBound site s ≤ n → q.reply site t n opened s = reply := by
  obtain ⟨answer, hfinal, hsettled⟩ := answer_settles hordered hs hf hq t opened
  refine ⟨answer.mapError fun err => (err, err.message), fun err text herr => ?_, fun n hn => ?_⟩
  · obtain ⟨e, he, hpair⟩ := mapError_error.1 herr
    cases hpair
    exact hfinal err he
  · rw [reply_eq_answer hordered hs hf hq t n opened]
    exact congrArg (Except.mapError fun err => (err, err.message)) (hsettled n hn)

/-- **Every question is answered.** Whatever the files include, import or depend on, from some bound
on the reply is the same, and neither the bound on nested expansions nor that on nested dependencies
is used up in it: it is an answer, or a failure that the files or the templates give. -/
theorem reply_settles (hordered : site.disk.tree.Ordered) (h : Reachable (· = site) s)
    (hq : q.Valid s.graph) (t : Templater) (opened : List String) :
    ∃ N reply, (∀ err text, reply = .error (err, text) → ¬ err.Exhausted) ∧
      ∀ n, N ≤ n → q.reply site t n opened s = reply := by
  obtain ⟨reply, hfinal, hsettled⟩ := reply_settled hordered h.sound h.faithful hq t opened
  exact ⟨expansionBound site s, reply, hfinal, hsettled⟩

/-- A directive that includes its own file again and again is answered. -/
theorem loop_settles : loopSite.disk.tree.Ordered ∧ Reachable (· = loopSite) loopLoad.2 ∧
    (Question.task ⟨0⟩).Valid loopLoad.2.graph ∧
    ∃ N reply, (∀ err text, reply = .error (err, text) → ¬ err.Exhausted) ∧
      ∀ n, N ≤ n → (Question.task ⟨0⟩).reply loopSite (.ofMode false) n [] loopLoad.2 = reply := by
  have hq : (Question.task ⟨0⟩).Valid loopLoad.2.graph := has_loop
  exact ⟨ordered_loop, reachable_loop, hq,
    reply_settles ordered_loop reachable_loop hq (.ofMode false) []⟩

end Questions

end Runlist

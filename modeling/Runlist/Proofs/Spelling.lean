import Runlist.Proofs.Expand.Endings
import Runlist.Proofs.Spelling.Expand

/-!
# The spellings of a directive mean the same

What a task expands to does not depend on how its directive is spelled, as long as the directive
that counts stays the same. Of several keys of one kind that a task has, the first one in the order
of `Action.taskIncludes` and `Action.roleIncludes` counts.

* `TaskDeclaration.AllAlike.replace`, `Site.Alike.write`: two spellings in the same place of the
  same document.
* `Source`: what may be loaded. `Graph.entry`: what is listed of a task.
* `spellings_agree`: **sites that are alike give the same tasks, or fail in the same way.**
* `second_key_counts`: where the spelling does count.
-/

namespace Runlist

variable {lines : LineRange → LineRange → Prop} {site site' : Site}

/-! ## The same place of the same document -/

namespace FileTree

variable {tree tree' new new' : FileTree} {es es' : List (String × FileTree)}

theorem AllAlike.putEntry (h : AllAlike lines es es') (name : String)
    (hnew : new.Alike lines new') :
    AllAlike lines (putEntry es name new) (putEntry es' name new') := by
  induction es generalizing es' with
  | nil => cases h; exact .cons hnew .nil
  | cons entry rest ih =>
    cases h with
    | @cons k _ _ _ _ htree hrest =>
      unfold FileTree.putEntry
      by_cases hk : name = k
      · rw [if_pos hk, if_pos hk]; exact .cons hnew hrest
      · rw [if_neg hk, if_neg hk]
        by_cases hlt : name < k
        · rw [if_pos hlt, if_pos hlt]; exact .cons hnew (.cons htree hrest)
        · rw [if_neg hlt, if_neg hlt]; exact .cons htree (ih hrest)

theorem Alike.put (h : tree.Alike lines tree') (names : List String) (hnew : new.Alike lines new') :
    (tree.put names new).Alike lines (tree'.put names new') := by
  induction names generalizing tree tree' with
  | nil => unfold FileTree.put; exact hnew
  | cons name names ih =>
    unfold FileTree.put
    refine .dir (h.entries.putEntry name (ih ?_))
    have hchild := h.entries.child? name
    generalize FileTree.child? tree.entries name = child, FileTree.child? tree'.entries name =
      child' at hchild ⊢
    cases hchild with
    | none => exact .dir .nil
    | some h => exact h

end FileTree

/-- **A document in two spellings**, at the same path of two sites that are alike. -/
theorem Site.Alike.write (h : site.Alike lines site') (path : FilePath) {text text' : String}
    (htext : TextAlike lines text text') :
    Site.Alike lines { site with disk := site.disk.write path (.text text) }
      { site' with disk := site'.disk.write path (.text text') } where
  tree := by
    have hspelled : site'.disk.spelled path = site.disk.spelled path := by
      unfold Disk.spelled
      rw [h.workingDirectory]
    unfold Disk.write
    rw [hspelled]
    exact h.tree.put _ (.text htext)
  workingDirectory := h.workingDirectory
  root := h.root
  config := h.config

/-! ## What is loaded -/

/-- What may be loaded. -/
inductive Source where
  | tasks (origin : Option OriginId) (role : Option RoleId) (path : FilePath)
  | playbook (origin : Option OriginId) (path : FilePath)
  | role (origin : Option OriginId) (play : Option PlayId) (name : String)
      (selection : RoleSelection)

namespace Source

/-- The handles in it are those of the graph. -/
def Valid (g : Graph) : Source → Prop
  | tasks origin owner _ =>
    (∀ o, origin = some o → g.HasOrigin o) ∧ ∀ r, owner = some r → g.HasRole r
  | playbook origin _ => ∀ o, origin = some o → g.HasOrigin o
  | role origin play _ _ =>
    (∀ o, origin = some o → g.HasOrigin o) ∧ ∀ p, play = some p → g.HasPlay p

/-- The entities that are loaded. -/
def load (site : Site) : Source → Load (List Entity)
  | tasks origin owner path => do return (← loadTasks site origin owner path).map .task
  | playbook origin path => do return [.playbook (← loadPlaybook site origin path)]
  | role origin play name selection =>
    do return [.role (← loadRoleWith site origin play name selection)]

theorem load_alike (h : site.Alike lines site') (hlines : ∀ l, lines l l) (source : Source) :
    Load.Alike lines Eq (source.load site) (source.load site') := by
  cases source with
  | tasks origin owner path => exact (h.loadTasksIn origin owner none path).next fun _ => .pure rfl
  | playbook origin path => exact (h.loadPlaybook hlines origin path).next fun _ => .pure rfl
  | role origin play name selection =>
    exact (h.loadRoleWith hlines origin play name selection).next fun _ => .pure rfl

theorem load_sound {s : Store} {source : Source} (hs : s.graph.Sound) (h : source.Valid s.graph) :
    ((source.load site).run.run s).2.graph.Sound := by
  suffices hadvances : Ends (source.load site) s (fun _ s' => Advances site s s') fun _ s' =>
    Advances site s s' from
    (hadvances.state (P := Advances site s) (fun _ _ h => h) fun _ _ h => h).sound hs
  cases source with
  | tasks origin owner path =>
    have ha : s.graph.Admits ⟨path, owner, none⟩ origin none := by
      refine ⟨h.2, ?_, h.1, ?_⟩
      · rintro _ ⟨⟩
      · rintro _ ⟨⟩
    exact ends_bind.2
      ((loadTasksIn_ends hs ha).mono (fun _ _ h => h.1.advances) fun _ _ h => h.1.advances)
  | playbook origin path =>
    exact ends_bind.2
      ((loadPlaybook_ends hs h path).mono (fun _ _ h => h.1.advances) fun _ _ h => h.1.advances)
  | role origin play name selection =>
    exact ends_bind.2
      ((loadRoleWith_ends hs h.1 h.2 name selection).mono (fun _ _ h => h.1.advances)
      fun _ _ h => h.1.advances)

end Source

/-! ## What is listed -/

/-- **What is listed of a task**: its path, its name and its mapping, the name of its role, and its
play. -/
structure Entry extends Leaf where
  role : Option String
  play : Option PlayId

/-- What is listed of a task. -/
def Graph.entry (g : Graph) (x : TaskId) : Entry where
  toLeaf := g.leaf x
  role := (g.task x).role.map fun r => (g.role r).name
  play := g.taskPlay x

/-- **The same is listed of two tasks.** Of a play that is read as a task, the tasks in it do not
count. -/
structure Entry.Alike (a b : Entry) : Prop where
  path : b.path = a.path
  name : b.name = a.name
  raw : b.raw = a.raw ∨ a.raw.SamePlay b.raw
  role : b.role = a.role
  play : b.play = a.play

/-- Tasks that are alike and declare no directive are listed alike. -/
theorem Graph.Alike.entry {g g' : Graph} (h : g.Alike lines g') {x : TaskId} (hx : g.IsLeaf x) :
    (g.entry x).Alike (g'.entry x) where
  path := h.taskPath x
  name := by
    show (g'.task x).name = (g.task x).name
    rw [(h.task x).same]
  raw := by
    obtain ⟨hblock, htasks, hrole⟩ := Task.kind_leaf hx.kind
    have halike := ((h.task x).raw.resolve_left id).resolve_left fun hne => by
      rw [Task.isBlock, List.isEmpty_eq_false_iff.2 hne] at hblock
      cases hblock
    refine halike.of_leaf fun i => ?_
    cases i with
    | tasks => exact htasks
    | role => exact hrole
  role := by
    show (g'.task x).role.map _ = (g.task x).role.map _
    simp only [h.task_role, h.role]
  play := h.taskPlay x

/-- **Two expansions end in the same way**: they give the same tasks, of which the same is listed,
or they fail in the same way. -/
inductive SameEnd (lines : LineRange → LineRange → Prop) :
    Except ExpandError (List TaskId) × Expansion →
    Except ExpandError (List TaskId) × Expansion → Prop
  | ok {ids : List TaskId} {e e' : Expansion} :
      (∀ x ∈ ids, (e.store.graph.entry x).Alike (e'.store.graph.entry x)) →
      SameEnd lines (.ok ids, e) (.ok ids, e')
  | error {err err' : ExpandError} {e e' : Expansion} : err.Alike lines err' →
      SameEnd lines (.error err, e) (.error err', e')

/-- Entities that are alike are expanded alike. -/
theorem Site.Alike.expand (h : site.Alike lines site') (hlines : ∀ l, lines l l) (t : Templater)
    (n : Nat) (a : Entity) : Expand.Alike lines Eq (a.expand site t n) (a.expand site' t n) := by
  cases a with
  | task x => exact h.expandTask hlines n x
  | role r => exact h.expandRoleOn hlines n r []
  | play p => exact h.expandPlay hlines n p
  | playbook pb => exact h.expandPlaybook hlines n pb

/-- **All spellings of a directive mean the same.** Two sites are alike where their documents differ
only in how directives are spelled, each of which counts in both of its tasks or in neither. From
every state that is reached, loading a document of the one and the like of it from the other ends in
the same way, with the same entities or for the same cause. Any entities of the state that it leaves
are then expanded, one after the other, to the same tasks in both sites, or fail for the same cause
at the same chain of origins and with the same target. -/
theorem spellings_agree {sites : Site → Prop} {s : Store} (h : Reachable sites s)
    (hlines : ∀ l, lines l l) (hsite : site.Alike lines site') {source : Source}
    (hsource : source.Valid s.graph) :
    Both LoadError.Alike Eq ((source.load site).run.run s).1 ((source.load site').run.run s).1 ∧
    ∀ as : List Entity, (∀ a ∈ as, a.Valid ((source.load site).run.run s).2.graph) →
      ∀ (t : Templater) (n : Nat) (opened : List String),
        SameEnd lines
          ((concatEach (Entity.expand site t n) as).run.run
            ⟨((source.load site).run.run s).2, opened⟩)
          ((concatEach (Entity.expand site' t n) as).run.run
            ⟨((source.load site').run.run s).2, opened⟩) := by
  obtain ⟨hresult, hstore⟩ := source.load_alike hsite hlines s s ⟨.refl hlines _, rfl⟩
  refine ⟨hresult, fun as has t n opened => ?_⟩
  have hs : ((source.load site).run.run s).2.graph.Sound := Source.load_sound h.sound hsource
  obtain ⟨hids, hends⟩ := Twin.concatEach (fun a => hsite.expand hlines t n a) as
    ⟨((source.load site).run.run s).2, opened⟩
    ⟨((source.load site').run.run s).2, opened⟩ ⟨hstore, rfl⟩
  have hleaves :
      Ripens site (concatEach (Entity.expand site t n) as)
        ⟨((source.load site).run.run s).2, opened⟩ :=
    expand_leaves n hs has
  unfold Ripens Ends at hleaves
  revert hids hends hleaves
  generalize (concatEach (Entity.expand site t n) as).run.run
    ⟨((source.load site).run.run s).2, opened⟩ = run
  generalize (concatEach (Entity.expand site' t n) as).run.run
    ⟨((source.load site').run.run s).2, opened⟩ = run'
  obtain ⟨r, e⟩ := run
  obtain ⟨r', e'⟩ := run'
  intro hids hends hleaves
  cases hids with
  | error herr => exact .error herr
  | @ok ids ids' heq =>
    subst heq
    exact .ok fun x hx => hends.store.graph.entry (hleaves.2 x hx)

/-! ## Documents with one task -/

/-- A text, or the only parameter of a mapping and its text. -/
def Json.written? : Json → Option (Option String × String)
  | .string text => some (none, text)
  | .object [(parameter, .string text)] => some (some parameter, text)
  | _ => none

/-- The value that was written so. -/
def Json.ofWritten : Option String × String → Json
  | (none, text) => .string text
  | (some parameter, text) => .object [(parameter, .string text)]

theorem Json.of_written? {value : Json} {w : Option String × String} (h : value.written? = some w) :
    value = .ofWritten w := by
  unfold Json.written? at h
  split at h <;> cases h <;> rfl

/-- The keys of a mapping, and what is written at each of them. -/
def Fields.written? (raw : Fields) : Option (List (String × Option String × String)) :=
  raw.mapM fun entry => entry.2.written?.map fun w => (entry.1, w)

theorem Fields.of_written? {raw : Fields} {l : List (String × Option String × String)}
    (h : raw.written? = some l) : raw = l.map fun entry => (entry.1, .ofWritten entry.2) := by
  unfold Fields.written? at h
  induction raw generalizing l with
  | nil => cases h; rfl
  | cons entry rest ih =>
    rw [List.mapM_cons] at h
    obtain ⟨first, hfirst, h⟩ := Option.bind_eq_some_iff.1 h
    obtain ⟨others, hothers, h⟩ := Option.bind_eq_some_iff.1 h
    obtain ⟨w, hw, rfl⟩ := Option.map_eq_some_iff.1 hfirst
    cases h
    rw [ih hothers, List.map_cons, ← Json.of_written? hw]

/-- The lines and the mapping of the only task in a document, which has no name. -/
def oneTask? (text : String) : Option (LineRange × List (String × Option String × String)) :=
  match Declaration.ofText Declaration.taskList text with
  | .ok [⟨range, none, [], raw, []⟩] => raw.written?.map fun l => (range, l)
  | _ => none

theorem of_oneTask? {text : String} {range : LineRange} {l : List (String × Option String × String)}
    (h : oneTask? text = some (range, l)) : Declaration.ofText Declaration.taskList text =
      .ok [⟨range, none, [], l.map fun entry => (entry.1, .ofWritten entry.2), []⟩] := by
  unfold oneTask? at h
  split at h
  · rename_i raw heq
    obtain ⟨l', hl, h⟩ := Option.map_eq_some_iff.1 h
    cases h
    rw [heq, ← Fields.of_written? hl]
  · cases h

/-- The lines of the only play in a document, if it is empty and imports no playbook. -/
def emptyPlay? (text : String) : Option LineRange :=
  match Declaration.ofText Declaration.playbook text with
  | .ok [⟨range, none, none, [], [], [], [], [], [], raw⟩] =>
    if ∀ action ∈ Action.playbookImports, raw.has action = false then some range else none
  | _ => none

theorem of_emptyPlay? {text : String} {range : LineRange}
    (h : emptyPlay? text = some range) : ∃ raw : Fields,
    Declaration.ofText Declaration.playbook text =
      .ok [⟨range, none, none, [], [], [], [], [], [], raw⟩] ∧
      ∀ action ∈ Action.playbookImports, raw.get? action = none := by
  unfold emptyPlay? at h
  split at h
  · rename_i raw heq
    split at h
    · rename_i hnone
      cases h
      exact ⟨raw, heq, fun action ha =>
        Option.not_isSome_iff_eq_none.1 (Bool.eq_false_iff.1 (hnone action ha))⟩
    · cases h
  · cases h

/-! ## One directive in two spellings -/

/-- A site with two files of tasks. -/
def fileSite : Site where
  disk := ⟨.dir [
    ("a.yml", .file (.text "- name: A\n  debug:\n")),
    ("b.yml", .file (.text "- name: B\n  debug:\n"))], []⟩
  root := ⟨"."⟩
  config := ⟨[]⟩

/-- The site with one more file, of the given text. -/
def textSite (text : String) : Site :=
  { fileSite with disk := fileSite.disk.write ⟨"t.yml"⟩ (.text text) }

/-- The tasks of the text are loaded into an empty state. -/
def textLoad (text : String) : Except LoadError (List Entity) × Store :=
  ((Source.tasks none none ⟨"t.yml"⟩).load (textSite text)).run.run .empty

/-- The first of them is expanded. -/
def textExpansion (text : String) : Except ExpandError (List TaskId) × Expansion :=
  (concatEach (Entity.expand (textSite text) (.ofMode false) 5) [.task ⟨0⟩]).run.run
    ⟨(textLoad text).2, []⟩

/-- A directive by itself. -/
def plainText : String := "- include_tasks: a.yml\n"

/-- The same directive, under another key and with its parameter named. -/
def prefixedText : String := "- ansible.builtin.import_tasks: \x7bfile: a.yml\x7d\n"

theorem plain_alike : TextAlike Eq plainText prefixedText := by
  obtain ⟨htask, hplay, hmeta, hvars⟩ :
      oneTask? plainText = some (⟨1, 1⟩, [("include_tasks", none, "a.yml")]) ∧
      emptyPlay? plainText = some ⟨1, 1⟩ ∧
      (Declaration.ofText Declaration.roleMeta plainText).toOption.isNone = true ∧
      (Declaration.ofText Declaration.vars plainText).toOption.isNone = true := by decide +kernel
  obtain ⟨htask', hplay', hmeta', hvars'⟩ :
      oneTask? prefixedText =
        some (⟨1, 1⟩, [("ansible.builtin.import_tasks", some "file", "a.yml")]) ∧
      emptyPlay? prefixedText = some ⟨1, 1⟩ ∧
      (Declaration.ofText Declaration.roleMeta prefixedText).toOption.isNone = true ∧
      (Declaration.ofText Declaration.vars prefixedText).toOption.isNone = true := by decide +kernel
  have hspelled : Respelled .tasks "include_tasks" "ansible.builtin.import_tasks"
      [("include_tasks", .string "a.yml")]
      [("ansible.builtin.import_tasks", .object [("file", .string "a.yml")])] :=
    ⟨by decide, by decide, ⟨"a.yml", _, _, rfl, rfl, .free, .mapping⟩, rfl⟩
  obtain ⟨raw, hplay, hnone⟩ := of_emptyPlay? hplay
  obtain ⟨raw', hplay', hnone'⟩ := of_emptyPlay? hplay'
  refine ⟨?_, ?_, .of_isNone hmeta hmeta', .of_isNone hvars hvars'⟩
  · rw [of_oneTask? htask, of_oneTask? htask']
    exact .ok (.cons (.single rfl (.respelled hspelled (by decide))) .nil)
  · rw [hplay, hplay']
    refine .ok (.cons ⟨rfl, rfl, rfl, .nil, .nil, .nil, .nil, rfl, rfl, fun action ha => ?_⟩ .nil)
    rw [hnone action ha, hnone' action ha]

/-- Both spellings include the task of the file. -/
theorem two_spellings_agree : (textSite plainText).Alike Eq (textSite prefixedText) ∧
    (textExpansion plainText).1.toOption = some [⟨1⟩] ∧
    SameEnd Eq (textExpansion plainText) (textExpansion prefixedText) := by
  have hsite : (textSite plainText).Alike Eq (textSite prefixedText) :=
    (Site.Alike.refl (fun _ => rfl) fileSite).write ⟨"t.yml"⟩ plain_alike
  have hvalid : (Source.tasks none none ⟨"t.yml"⟩).Valid Store.empty.graph := by
    refine ⟨?_, ?_⟩ <;> rintro _ ⟨⟩
  obtain ⟨hhas, hresult⟩ : (textLoad plainText).2.graph.HasTask ⟨0⟩ ∧
      (textExpansion plainText).1.toOption = some [⟨1⟩] := by decide +kernel
  have hentity : ∀ a ∈ [Entity.task ⟨0⟩], a.Valid (textLoad plainText).2.graph := by
    intro a ha
    rw [List.mem_singleton.1 ha]
    exact hhas
  unfold textLoad at hentity
  have hempty : Reachable (· = textSite plainText) .empty := .refl
  obtain ⟨-, hends⟩ := spellings_agree hempty (fun _ => rfl) hsite hvalid
  refine ⟨hsite, hresult, ?_⟩
  unfold textExpansion textLoad
  exact hends [.task ⟨0⟩] hentity (.ofMode false) 5 []

/-! ## Where the spelling counts -/

/-- A task with two directives of one kind. -/
def twoKeysText : String := "- include_tasks: a.yml\n  import_tasks: b.yml\n"

/-- The same task, with another key for the first directive. -/
def twoKeysPrefixedText : String := "- ansible.builtin.import_tasks: a.yml\n  import_tasks: b.yml\n"

/-- A play whose only task includes the document in which it stands, which is then read as tasks. -/
def selfText (key : String) : String := "- hosts: all\n  tasks:\n  - " ++ key ++ ": t.yml\n"

/-- The play is expanded in the state in which it was loaded. -/
def selfExpansion (key : String) : Except ExpandError (List TaskId) × Expansion :=
  (expandPlay (textSite (selfText key)) (.ofMode false) 5 ⟨0⟩).run.run
    ⟨((loadPlaybook (textSite (selfText key)) none ⟨"t.yml"⟩).run.run .empty).2, []⟩

/-- The first key of the first task that is declared in a mapping. -/
def firstKey? (raw : Fields) : Option String :=
  match raw.get? "tasks" with
  | some (.array (.object ((key, _) :: _) :: _)) => some key
  | _ => none

/-- **The spelling counts** in a task with two directives of one kind: it decides which of them
comes first. And it is seen where a play is read as a task, as a part of its mapping. -/
theorem second_key_counts :
    (∃ range raw raw',
      Declaration.ofText Declaration.taskList twoKeysText = .ok [⟨range, none, [], raw, []⟩] ∧
      Declaration.ofText Declaration.taskList twoKeysPrefixedText =
        .ok [⟨range, none, [], raw', []⟩] ∧
      Respelled .tasks "include_tasks" "ansible.builtin.import_tasks" raw raw') ∧
    (textExpansion twoKeysText).1.toOption = some [⟨1⟩] ∧
    (textExpansion twoKeysPrefixedText).1.toOption = some [⟨1⟩] ∧
    ((textExpansion twoKeysText).2.store.graph.entry ⟨1⟩).name = some "A" ∧
    ((textExpansion twoKeysPrefixedText).2.store.graph.entry ⟨1⟩).name = some "B" ∧
    (selfExpansion "include_tasks").1.toOption = some [⟨1⟩] ∧
    (selfExpansion "import_tasks").1.toOption = some [⟨1⟩] ∧
    ((selfExpansion "import_tasks").2.store.graph.entry ⟨1⟩).raw ≠
      ((selfExpansion "include_tasks").2.store.graph.entry ⟨1⟩).raw := by
  have htask : oneTask? twoKeysText =
      some (⟨1, 2⟩, [("import_tasks", none, "b.yml"), ("include_tasks", none, "a.yml")]) := by
    decide +kernel
  have htask' : oneTask? twoKeysPrefixedText =
      some (⟨1, 2⟩, [("ansible.builtin.import_tasks", none, "a.yml"),
        ("import_tasks", none, "b.yml")]) := by
    decide +kernel
  obtain ⟨hresult, hname⟩ : (textExpansion twoKeysText).1.toOption = some [⟨1⟩] ∧
      ((textExpansion twoKeysText).2.store.graph.entry ⟨1⟩).name = some "A" := by decide +kernel
  obtain ⟨hresult', hname'⟩ : (textExpansion twoKeysPrefixedText).1.toOption = some [⟨1⟩] ∧
      ((textExpansion twoKeysPrefixedText).2.store.graph.entry ⟨1⟩).name = some "B" := by
    decide +kernel
  obtain ⟨hself, hkey⟩ : (selfExpansion "include_tasks").1.toOption = some [⟨1⟩] ∧
      firstKey? ((selfExpansion "include_tasks").2.store.graph.entry ⟨1⟩).raw =
        some "include_tasks" := by decide +kernel
  obtain ⟨hself', hkey'⟩ : (selfExpansion "import_tasks").1.toOption = some [⟨1⟩] ∧
      firstKey? ((selfExpansion "import_tasks").2.store.graph.entry ⟨1⟩).raw =
        some "import_tasks" := by decide +kernel
  refine ⟨⟨_, _, _, of_oneTask? htask, of_oneTask? htask', ?_⟩, hresult, hresult', hname, hname',
    hself, hself',
    fun heq => ?_⟩
  · exact ⟨by decide, by decide, ⟨"a.yml", _, _, rfl, rfl, .free, .free⟩, rfl⟩
  · rw [heq, hkey] at hkey'
    exact absurd hkey' (by decide)

end Runlist

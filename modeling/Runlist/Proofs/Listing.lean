import Runlist.Proofs.Playbooks
import Runlist.Proofs.Termination
import Runlist.Proofs.Watch.Operation

/-!
# The list of all tasks, playbook by playbook

All playbooks of a project share one state of loading, and are expanded one after the other. What
they have loaded and remembered for one another shows in nothing: each of them adds the tasks that
it has on its own, in whatever state it is expanded, and the first one that fails on its own is the
one that the list fails with.

* `Playbook.reply`: what is seen when a playbook is expanded on its own.
* `Project.Holds.plays`: a project has the plays of its playbooks.
* `Project.listing_follows`: the list follows the outcomes of the playbooks' nodes.
* `Project.reply_of_bound`: what a playbook gives on its own is what every bound gives that is large
  enough.
* `Project.Composed`: a list is made of parts, one for each playbook.
* `Project.listing_composes`: **the list is made of what the playbooks give on their own.**
-/

namespace Runlist

/-- What is seen when a playbook is expanded on its own in a state, with nothing open yet and the
bound on nested expansions that goes with the state. -/
def Playbook.reply (site : Site) (t : Templater) (s : Store) (pb : Playbook) :
    Except (ExpandError × String) Answer :=
  (Question.playbook pb).reply site t (expansionBound site s) [] s

namespace Project

variable {disk : Disk} {p q : Project} {given : List FilePath} {s : Store} {t : Templater} {n : Nat}

/-! ## Playbooks of a project -/

theorem mem_playbooks {pb : Playbook} (h : pb ∈ p.playbooks) :
    pb ∈ p.mainPlaybook.toList ++ p.otherPlaybooks := by
  unfold playbooks at h
  cases hmain : p.mainPlaybook with
  | none =>
    rw [hmain] at h
    exact h
  | some main =>
    rw [hmain] at h
    exact List.mem_append_left _ h

/-- **A project has the plays of its playbooks.** -/
theorem Holds.plays (h : p.Holds disk given) {pb : Playbook} (hpb : pb ∈ p.playbooks) :
    (Question.playbook pb).Valid p.store.graph := by
  obtain ⟨ds, -, hshows⟩ := h.shows pb (mem_playbooks hpb)
  intro play hplay
  obtain ⟨d, -, hd⟩ := exists_right hshows hplay
  exact hd.has

/-- A project later on: requests have led to its state, and the rest is as before. -/
structure Later (disk : Disk) (p q : Project) : Prop where
  site : q.site disk = p.site disk
  main : q.mainPlaybook = p.mainPlaybook
  others : q.otherPlaybooks = p.otherPlaybooks
  reaches : Reaches (· = p.site disk) p.store q.store

theorem Later.refl (disk : Disk) (p : Project) : p.Later disk p := ⟨rfl, rfl, rfl, .refl⟩

theorem Later.playbooks (h : p.Later disk q) : q.playbooks = p.playbooks := by
  unfold Project.playbooks
  rw [h.main, h.others]

/-- To list a project is a request about each of its playbooks. -/
theorem Later.listTasks (h : p.Later disk q) (hs : q.store.graph.Sound)
    (hplays : ∀ pb ∈ q.playbooks, (Question.playbook pb).Valid q.store.graph) :
    p.Later disk (q.listTasks disk).2 where
  site := h.site
  main := h.main
  others := h.others
  reaches := by
    refine h.reaches.trans ?_
    rw [listTasks_store, ← h.site]
    exact @Operation.reaches _ _ (.expandPlaybooks _ _ _ _) hs hplays

/-! ## The list and its outcomes -/

/-- The outcome of a playbook whose plays a state has. -/
def outcome (site : Site) (t : Templater) (n : Nat) (s : Store) (pb : Playbook) :
    Except ExpandError (List Leaf) :=
  playbookOutcome site t n [] (s.graph.playbookNode pb)

/-- **The list follows the outcomes of the playbooks' nodes.** -/
theorem listing_follows (hordered : disk.tree.Ordered) (hs : Passed (p.site disk) p.store)
    (hplays : ∀ pb ∈ p.playbooks, (Question.playbook pb).Valid p.store.graph) :
    Follows (p.site disk)
      (concatEach (expandPlaybook (p.site disk) p.templater n) p.playbooks) ⟨p.store, []⟩
      (concatEach (outcome (p.site disk) p.templater n p.store) p.playbooks) := by
  have h : Follows (p.site disk)
      (concatEach (expandPlaybook (p.site disk) p.templater n) p.playbooks) ⟨p.store, []⟩
      (concatEach (playbookOutcome (p.site disk) p.templater n [])
        (p.playbooks.map p.store.graph.playbookNode)) :=
    concatEach_nodes (H := fun g pb => (Question.playbook pb).Valid g) (N := Graph.playbookNode)
      (fun hk hq => hq.keeps hk) (fun hs hst hq => Graph.playbookNode_stays hs hst hq)
      (expandPlaybook_follows hordered n) hs.sound hs.faithful hplays
  rw [concatEach_of_map] at h
  exact h

/-- What is seen of the outcome of a playbook. -/
def seen (o : Except ExpandError (List Leaf)) : Except (ExpandError × String) Answer :=
  (do return .leaves (← o) : Except ExpandError Answer).mapError fun err => (err, err.message)

theorem seen_ok {o : Except ExpandError (List Leaf)} {part : List Leaf} :
    seen o = .ok (.leaves part) ↔ o = .ok part := by
  cases o with
  | error err => exact ⟨(nomatch ·), (nomatch ·)⟩
  | ok leaves =>
    constructor
    · intro h; cases h; rfl
    · intro h; cases h; rfl

/-- **On its own a playbook has the outcome of its node**, in whatever later state it is
expanded. -/
theorem reply_eq_seen {site : Site} (hordered : site.disk.tree.Ordered) (hs : Passed site p.store)
    {pb : Playbook} (hpb : (Question.playbook pb).Valid p.store.graph)
    (h : Reaches (· = site) p.store s) (n : Nat) :
    (Question.playbook pb).reply site t n [] s = seen (outcome site t n p.store pb) := by
  have hadvances := h.advances hs.sound
  have hlater := hs.advances hadvances
  rw [reply_eq_answer hordered hlater.sound hlater.faithful (hpb.keeps hadvances.grows.keeps),
    Question.answer_stays hs.sound hadvances.grows hpb]
  rfl

theorem outcome_stays {site : Site} (hs : Passed site p.store) {pb : Playbook}
    (hpb : (Question.playbook pb).Valid p.store.graph) (h : Reaches (· = site) p.store s)
    (n : Nat) : outcome site t n s pb = outcome site t n p.store pb := by
  unfold outcome
  rw [Graph.playbookNode_stays hs.sound (h.advances hs.sound).grows.toStays hpb]

/-- **What a playbook gives on its own** is what every bound gives that is large enough in one of
the states to which requests have led; and it is no bound that is used up. -/
theorem reply_of_bound {site : Site} (hordered : site.disk.tree.Ordered) (hs : Passed site p.store)
    {pb : Playbook} (hpb : (Question.playbook pb).Valid p.store.graph)
    (h : Reaches (· = site) p.store s) (t : Templater) :
    (∀ err text, pb.reply site t s = .error (err, text) → ¬ err.Exhausted) ∧
      ∀ s', Reaches (· = site) p.store s' → ∀ n, expansionBound site s' ≤ n →
        (Question.playbook pb).reply site t n [] s = pb.reply site t s := by
  have hsettled : ∀ s', Reaches (· = site) p.store s' → ∃ reply,
      (∀ err text, reply = .error (err, text) → ¬ err.Exhausted) ∧
        ∀ n, expansionBound site s' ≤ n → seen (outcome site t n p.store pb) = reply := by
    intro s' h'
    have hlater := hs.advances (h'.advances hs.sound)
    have hvalid := hpb.keeps (h'.advances hs.sound).grows.keeps
    obtain ⟨reply, hfinal, hreply⟩ :=
      reply_settled hordered hlater.sound hlater.faithful hvalid t []
    exact ⟨reply, hfinal, fun n hn => by rw [← reply_eq_seen hordered hs hpb h' n, hreply n hn]⟩
  obtain ⟨reply, hfinal, hreply⟩ := hsettled s h
  have hown : pb.reply site t s = reply := by
    rw [Playbook.reply, reply_eq_seen hordered hs hpb h, hreply _ le_rfl]
  rw [hown]
  refine ⟨hfinal, fun s' h' n hn => ?_⟩
  -- both bounds are below a common one, at which the replies agree
  obtain ⟨reply', -, hreply'⟩ := hsettled s' h'
  have hsame : reply' = reply := by
    rw [← hreply _ (le_max_left (expansionBound site s) (expansionBound site s')),
      hreply' _ (le_max_right _ _)]
  rw [reply_eq_seen hordered hs hpb h n, hreply' n hn, hsame]

/-! ## The list and its parts -/

/-- **A list of all tasks is made of parts**, one for each playbook: there is a list if there are
all parts, and then it is these one after the other; otherwise it fails as the first part that is
missing. -/
structure Composed (playbooks : List Playbook)
    (reply : Playbook → Except (ExpandError × String) Answer)
    (result : Except ProjectError (List TaskId) × Project) : Prop where
  ok : (∃ ids p', result = (.ok ids, p')) ↔ ∀ pb ∈ playbooks, ∃ part, reply pb = .ok (.leaves part)
  parts : ∀ {ids p'}, result = (.ok ids, p') → ∃ parts,
    List.Forall₂ (fun pb part => reply pb = .ok (.leaves part)) playbooks parts ∧
      ids.map p'.store.graph.leaf = parts.flatten
  failure : ∀ {err p'}, result = (.error err, p') → ∃ cause front pb back, err = .expand cause ∧
    playbooks = front ++ pb :: back ∧
    (∀ before ∈ front, ∃ part, reply before = .ok (.leaves part)) ∧
      reply pb = .error cause.seen

/-- A list that follows outcomes is made of what is seen of them. -/
theorem composed_of_follows {o : Playbook → Except ExpandError (List Leaf)}
    {reply : Playbook → Except (ExpandError × String) Answer}
    (hreply : ∀ pb ∈ p.playbooks, reply pb = seen (o pb))
    (h : Follows (p.site disk) (concatEach (expandPlaybook (p.site disk) p.templater
      (expansionBound (p.site disk) p.store)) p.playbooks) ⟨p.store, []⟩
      (concatEach o p.playbooks)) :
    Composed p.playbooks reply (p.listTasks disk) := by
  have hseen : ∀ pb ∈ p.playbooks, ∀ part, reply pb = .ok (.leaves part) ↔ o pb = .ok part :=
    fun pb hpb part => by
    rw [hreply pb hpb, seen_ok]
  have hparts : ∀ {leaves}, concatEach o p.playbooks = .ok leaves → ∃ parts,
      List.Forall₂ (fun pb part => reply pb = .ok (.leaves part)) p.playbooks parts ∧
      leaves = parts.flatten := by
    intro leaves ho
    obtain ⟨parts, hparts, rfl⟩ := concatEach_ok.1 ho
    exact ⟨parts, forall₂_mem hparts fun pb part hpb _ hpart => (hseen pb hpb part).2 hpart, rfl⟩
  have hlist : p.listTasks disk = p.expand (concatEach (expandPlaybook (p.site disk) p.templater
      (expansionBound (p.site disk) p.store)) p.playbooks) := rfl
  rw [hlist, Project.expand]
  rcases hrun : (concatEach (expandPlaybook (p.site disk) p.templater
    (expansionBound (p.site disk) p.store)) p.playbooks).run.run ⟨p.store, []⟩ with ⟨result, e⟩
  cases result with
  | ok ids =>
    obtain ⟨-, leaves, ho, hleaves⟩ := h.of_ok hrun
    obtain ⟨parts, hforall, hflatten⟩ := hparts ho
    refine ⟨⟨fun _ pb hpb => ?_, fun _ => ⟨ids, _, rfl⟩⟩, ?_, ?_⟩
    · obtain ⟨part, -, hpart⟩ := exists_right hforall hpb
      exact ⟨part, hpart⟩
    · rintro _ _ ⟨⟩
      exact ⟨parts, hforall, by rw [← hflatten, hleaves.leaves]⟩
    · rintro _ _ ⟨⟩
  | error err =>
    obtain ⟨-, ho⟩ := h.of_error hrun
    obtain ⟨front, pb, back, hsplit, hfront, hfail⟩ := concatEach_error_split ho
    have hpb : pb ∈ p.playbooks := by rw [hsplit]; exact List.mem_append_right _ List.mem_cons_self
    have hmissing : reply pb = .error err.seen := by
      rw [hreply pb hpb, hfail]
      show Except.error (err.bare, err.bare.message) = Except.error (err.bare, err.message)
      rw [err.message_bare]
    refine ⟨⟨?_, fun hall => ?_⟩, ?_, ?_⟩
    · rintro ⟨_, _, ⟨⟩⟩
    · obtain ⟨part, hpart⟩ := hall pb hpb
      rw [hmissing] at hpart
      cases hpart
    · rintro _ _ ⟨⟩
    · rintro _ _ ⟨⟩
      refine ⟨err, front, pb, back, rfl, hsplit, fun before hbefore => ?_, hmissing⟩
      obtain ⟨part, hpart⟩ := hfront before hbefore
      exact ⟨part, (hseen before (by rw [hsplit]; exact List.mem_append_left _ hbefore) part).2
        hpart⟩

/-- **To list a project is compositional.** After any requests, the list of all tasks is made of the
parts that the playbooks have on their own, each expanded in a state of its choice. The bounds on
nested expansions show in nothing: no part uses its own up, and it is the same with every larger one
and with that of the list. And the project that is left may be listed again. -/
theorem listing_composes (hordered : disk.tree.Ordered) {config : ProjectConfig}
    {base : LoaderConfig} {t : Templater} {root : FilePath} {playbooks : List FilePath}
    (hparse : Project.parse config base t disk root playbooks = (.ok (), p))
    (hlater : p.Later disk q) (state : Playbook → Store)
    (hstate : ∀ pb ∈ q.playbooks, Reaches (· = q.site disk) p.store (state pb)) :
    Composed q.playbooks (fun pb => pb.reply (q.site disk) q.templater (state pb))
      (q.listTasks disk) ∧
      (∀ pb ∈ q.playbooks,
        (∀ err text, pb.reply (q.site disk) q.templater (state pb) = .error (err, text) →
          ¬ err.Exhausted) ∧
        ∀ n, expansionBound (q.site disk) (state pb) ≤ n ∨
          expansionBound (q.site disk) q.store ≤ n →
          (Question.playbook pb).reply (q.site disk) q.templater n [] (state pb) =
            pb.reply (q.site disk) q.templater (state pb)) ∧
      p.Later disk (q.listTasks disk).2 := by
  obtain ⟨tried, -, -, hholds⟩ := parse_holds hparse
  have hpassed : Passed (q.site disk) p.store := by rw [hlater.site]; exact hholds.passed
  have hreaches : Reaches (· = q.site disk) p.store q.store := by
    rw [hlater.site]; exact hlater.reaches
  have hadvances := hreaches.advances hpassed.sound
  have hplays : ∀ pb ∈ q.playbooks, (Question.playbook pb).Valid p.store.graph := by
    rw [hlater.playbooks]
    exact fun pb hpb => hholds.plays hpb
  have hbound := fun pb (hpb : pb ∈ q.playbooks) =>
    reply_of_bound hordered hpassed (hplays pb hpb) (hstate pb hpb) q.templater
  have hlast : Passed (q.site disk) q.store := hpassed.advances hadvances
  have hvalid : ∀ pb ∈ q.playbooks, (Question.playbook pb).Valid q.store.graph := fun pb hpb =>
    (hplays pb hpb).keeps hadvances.grows.keeps
  refine ⟨?_, ?_, hlater.listTasks hlast.sound hvalid⟩
  · refine composed_of_follows
      (o := outcome (q.site disk) q.templater (expansionBound (q.site disk) q.store) q.store)
      (fun pb hpb => ?_) ?_
    · rw [← (hbound pb hpb).2 q.store hreaches _ le_rfl,
        reply_eq_seen hordered hpassed (hplays pb hpb) (hstate pb hpb),
        outcome_stays hpassed (hplays pb hpb) hreaches]
    · exact listing_follows hordered hlast hvalid
  · intro pb hpb
    refine ⟨(hbound pb hpb).1, fun n hn => ?_⟩
    rcases hn with hn | hn
    · exact (hbound pb hpb).2 (state pb) (hstate pb hpb) n hn
    · exact (hbound pb hpb).2 q.store hreaches n hn

end Project

/-! ## Playbooks that share a role -/

/-- A root with two playbooks: one with a role, and one that imports the first and has the role as
well. -/
def sharedDisk : Disk := ⟨.dir [
  ("a.yml", .file (.text "- hosts: all\n  roles:\n  - web\n")),
  ("b.yml", .file (.text "- import_playbook: a.yml\n- hosts: all\n  roles:\n  - web\n")),
  ("roles", .dir [("web", .dir [("tasks", .dir [("main.yml", .file (.text "- ping:\n"))])])])], []⟩

theorem ordered_shared : sharedDisk.tree.Ordered := by
  unfold sharedDisk
  simp only [FileTree.Ordered, FileTree.OrderedEntries]
  decide

/-- The project of its documents. -/
def sharedProject : Project := (parsedRoot sharedDisk).2

/-- The list of the project, with the playbooks expanded on their own in the state in which all were
parsed: the first has the task of the role once, the second has it twice. -/
theorem shared_composes : parsedRoot sharedDisk = (.ok (), sharedProject) ∧
    sharedProject.playbooks.map (·.path) = [⟨"./a.yml"⟩, ⟨"./b.yml"⟩] ∧
    (sharedProject.listTasks sharedDisk).1.toOption.map List.length = some 3 ∧
    Project.Composed sharedProject.playbooks
      (fun pb =>
        pb.reply (sharedProject.site sharedDisk) sharedProject.templater sharedProject.store)
      (sharedProject.listTasks sharedDisk) := by
  obtain ⟨hfound, hpaths, hthree⟩ : (parsedRoot sharedDisk).1.toOption = some () ∧
      sharedProject.playbooks.map (·.path) = [⟨"./a.yml"⟩, ⟨"./b.yml"⟩] ∧
      (sharedProject.listTasks sharedDisk).1.toOption.map List.length = some 3 := by decide +kernel
  have hrun : parsedRoot sharedDisk = (.ok (), sharedProject) := run_ok hfound
  have hparse : Project.parse .empty .empty (.ofMode false) sharedDisk ⟨"."⟩ [] =
      (.ok (), sharedProject) := hrun
  exact ⟨hrun, hpaths, hthree,
    (Project.listing_composes ordered_shared hparse (Project.Later.refl _ _)
    (fun _ => sharedProject.store) fun _ _ => .refl).1⟩

end Runlist

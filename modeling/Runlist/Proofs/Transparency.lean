import Runlist.Proofs.Outcome.Questions

/-!
# What is remembered changes no answer

The directories of roles, the dependencies of roles and the variables of tasks are kept once they
are known. Whatever was asked in between, and however it ended, the answer to a question stays the
same.

* `Question.reply`: what is seen when a question is asked in a state.
* `reply_eq_answer`: it is the answer on the documents.
* `reply_stays`: **a question has the same reply in every later state.**
-/

namespace Runlist

variable {site : Site} {s s' : Store} {q : Question}

/-- What is seen of a failure: its cause without handles, and its wording. -/
def ExpandError.seen (err : ExpandError) : ExpandError × String := (err.bare, err.message)

theorem Origin.text_bare (o : Origin) : o.bare.text = o.text := by
  simp only [Origin.text, Origin.bare]

theorem ExpandError.message_includeFailed (chain : List Origin) (target : String)
    (source : ExpandError) :
    (ExpandError.includeFailed chain target source).message =
      "Failed to include " ++ target ++ " (from " ++
      " -> ".intercalate (chain.map Origin.text) ++ "): " ++ source.message := rfl

/-- The wording shows no handles. -/
theorem ExpandError.message_bare (err : ExpandError) : err.bare.message = err.message := by
  induction err with
  | includeFailed chain target source ih =>
    have hchain : (chain.map Origin.bare).map Origin.text = chain.map Origin.text := by
      rw [List.map_map]
      exact List.map_congr_left fun o _ => o.text_bare
    rw [ExpandError.bare, message_includeFailed, message_includeFailed, hchain, ih]
  | load error => rfl
  | cyclicInclude chain => rfl
  | invalidParams action reason => rfl
  | tooDeep => rfl

/-- What is seen when a question is asked in a state, with some targets open. -/
def Question.reply (site : Site) (t : Templater) (n : Nat) (opened : List String) (s : Store)
    (q : Question) : Except (ExpandError × String) Answer :=
  ((q.ask site t n).run.run ⟨s, opened⟩).1.mapError ExpandError.seen

/-- **A reply is the answer on the documents**; nothing that is remembered has a part in it. -/
theorem reply_eq_answer (hordered : site.disk.tree.Ordered) (hs : s.graph.Sound)
    (hf : Faithful site s) (hq : q.Valid s.graph) (t : Templater) (n : Nat) (opened : List String) :
    q.reply site t n opened s = (q.answer site t n opened s.graph).mapError fun err =>
      (err, err.message) := by
  have h := Question.ask_follows (t := t) (n := n) (e := ⟨s, opened⟩) hordered hs hf hq
  unfold Question.reply
  rcases hrun : (q.ask site t n).run.run ⟨s, opened⟩ with ⟨result, e'⟩
  cases result with
  | ok a =>
    rw [h.of_ok hrun]; rfl
  | error err =>
    rw [h.of_error hrun]
    show Except.error (err.bare, err.message) = Except.error (err.bare, err.bare.message)
    rw [err.message_bare]

/-- **What is remembered changes no answer.** A question about entities of a state that was reached
has the same reply in every state that is reached from there: the same variables, names or tasks, or
the same failure. -/
theorem reply_stays (hordered : site.disk.tree.Ordered) (h : Reachable (· = site) s)
    (h' : Reaches (· = site) s s') (hq : q.Valid s.graph) (t : Templater) (n : Nat)
    (opened : List String) :
    q.Valid s'.graph ∧ q.reply site t n opened s' = q.reply site t n opened s := by
  have hs := h.sound
  have hadvances := h'.advances hs
  have hq' := hq.keeps hadvances.grows.keeps
  refine ⟨hq', ?_⟩
  rw [reply_eq_answer hordered hs h.faithful hq t n opened,
    reply_eq_answer hordered (hadvances.sound hs) (hadvances.faithful hs h.faithful) hq' t n opened,
    Question.answer_stays hs hadvances.grows hq]

/-- The directive of the small site has the same tasks after the playbook was expanded. -/
theorem small_reply_stays : smallSite.disk.tree.Ordered ∧ Reachable (· = smallSite) smallLoad.2 ∧
    Reaches (· = smallSite) smallLoad.2 smallExpansion.2.store ∧
    (Question.task ⟨0⟩).Valid smallLoad.2.graph ∧
    (Question.task ⟨0⟩).reply smallSite (.ofMode false) 10 [] smallExpansion.2.store =
      (Question.task ⟨0⟩).reply smallSite (.ofMode false) 10 [] smallLoad.2 := by
  have hvalid :
      (Request.expandPlaybook (.ofMode false) 10 [] smallPlaybook).Valid smallLoad.2.graph := by
    intro p hp
    rw [List.mem_singleton.1 hp]; exact has_small.1
  have hrun :
      (Request.expandPlaybook (.ofMode false) 10 [] smallPlaybook).run smallSite smallLoad.2 =
      smallExpansion.2.store := by
    rw [Request.run, smallExpansion]
  have hlater : Reaches (· = smallSite) smallLoad.2 smallExpansion.2.store := by
    rw [← hrun]
    exact .step .refl rfl hvalid
  have hq : (Question.task ⟨0⟩).Valid smallLoad.2.graph := has_small.2
  exact ⟨ordered_small, reachable_small, hlater, hq,
    (reply_stays ordered_small reachable_small hlater hq (.ofMode false) 10 []).2⟩

end Runlist

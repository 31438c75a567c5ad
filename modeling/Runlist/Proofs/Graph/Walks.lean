import Mathlib.Data.List.Nodup
import Runlist.Proofs.Graph.Writes

/-!
# Walks up a graph

The provenance of an origin, the ancestors of a task and the search for the task that a directive
adopts are loops that go from entity to entity, with no bound of their own.

* `Visits`: **what such a loop meets until it ends**, in order. It has no derivation for one that
  goes on for ever.
* `visited`: what the loop meets within a number of steps.
* `WellFormed.visits_origins`, `visits_parents`, `visits_below`: in a well-formed graph each loop
  ends, and meets nothing twice.
* `chain_visited`, `climb_visited`, `Visits.chainRoot_eq`: what is made of what was met.
-/

namespace Runlist

variable {α : Type} {next : α → Option α} {a : α} {l : List α}

/-- **What a loop meets** that goes from one place to the next until there is none. -/
inductive Visits (next : α → Option α) : α → List α → Prop
  | stop {a : α} : next a = none → Visits next a [a]
  | step {a b : α} {l : List α} : next a = some b → Visits next b l → Visits next a (a :: l)

/-- What a loop meets in a number of steps. -/
def visited (next : α → Option α) : Nat → α → List α
  | 0, _ => []
  | n + 1, a => a :: match next a with
    | some b => visited next n b
    | none => []

/-- With enough steps, the loop has ended. -/
theorem Visits.visited_eq (h : Visits next a l) {n : Nat} (hn : l.length ≤ n) :
    visited next n a = l := by
  induction h generalizing n with
  | stop hnone =>
    cases n with
    | zero => cases hn
    | succ n => rw [visited, hnone]
  | step hsome _ ih =>
    cases n with
    | zero => cases hn
    | succ n =>
      rw [visited, hsome]
      simp only
      rw [ih (by simpa using hn)]

/-- A bounded loop stays where every step stays. -/
theorem visited_mem {P : α → Prop} (hstep : ∀ a b, P a → next a = some b → P b)
    {n : Nat} (ha : P a) : ∀ b ∈ visited next n a, P b := by
  induction n generalizing a with
  | zero => exact fun b hb => (List.not_mem_nil hb).elim
  | succ n ih =>
    intro b hb
    rw [visited] at hb
    rcases List.mem_cons.1 hb with rfl | hb
    · exact ha
    · cases hnext : next a with
      | none => rw [hnext] at hb; cases hb
      | some c => rw [hnext] at hb; exact ih (hstep a c ha hnext) b hb

/-- **A loop that goes down in rank ends**, and what it meets goes down in rank, so that it meets
nothing twice. -/
theorem exists_visits (next : α → Option α) {P : α → Prop} (rank : α → Nat)
    (hstep : ∀ a b, P a → next a = some b → P b ∧ rank b < rank a) (ha : P a) :
    ∃ l, Visits next a l ∧ (∀ b ∈ l, P b ∧ rank b ≤ rank a) ∧ l.Nodup ∧ l.length ≤ rank a + 1 := by
  induction hn : rank a using Nat.strong_induction_on generalizing a with
  | _ n ih =>
    subst hn
    cases hnext : next a with
    | none =>
      refine ⟨[a], .stop hnext, fun b hb => ?_, List.nodup_singleton a,
        Nat.succ_le_succ (Nat.zero_le _)⟩
      rw [List.mem_singleton.1 hb]; exact ⟨ha, le_rfl⟩
    | some c =>
      obtain ⟨hc, hlt⟩ := hstep a c ha hnext
      obtain ⟨l, hvisits, hmem, hnodup, hlength⟩ := ih (rank c) hlt hc rfl
      refine ⟨a :: l, .step hnext hvisits,
        fun b hb => ?_, List.nodup_cons.2 ⟨fun hmem' => ?_, hnodup⟩, ?_⟩
      · rcases List.mem_cons.1 hb with rfl | hb
        · exact ⟨ha, le_rfl⟩
        · exact ⟨(hmem b hb).1, le_trans (hmem b hb).2 (le_of_lt hlt)⟩
      · have hle := (hmem a hmem').2
        omega
      · rw [List.length_cons]; omega

namespace Graph

variable {g : Graph}

/-! ## The loops -/

/-- From an origin to the one around it. -/
def outer (g : Graph) (o : OriginId) : Option OriginId := (g.origin o).parent

/-- From a task to its parent. -/
def parentOf (g : Graph) (x : TaskId) : Option TaskId := (g.task x).parent

/-- From a task to its parent, up to the one below `top`. -/
def below (g : Graph) (top : TaskId) (x : TaskId) : Option TaskId :=
  (g.task x).parent.filter fun p => p != top

/-- **The provenance** is the way back from what is met. -/
theorem chain_visited (n : Nat) (o : OriginId) :
    g.chain n o = ((visited g.outer n o).map g.origin).reverse := by
  induction n generalizing o with
  | zero => rfl
  | succ n ih =>
    rw [chain, visited, outer]
    cases (g.origin o).parent with
    | none => rfl
    | some p => simp only [ih, List.map_cons, List.reverse_cons]

/-- **The ancestors** are what is met after the task. -/
theorem climb_visited (n : Nat) (x : TaskId) :
    g.climb n x = (visited g.parentOf (n + 1) x).tail := by
  induction n generalizing x with
  | zero => rw [climb, visited, parentOf]; cases (g.task x).parent <;> rfl
  | succ n ih =>
    rw [climb, visited, parentOf]
    cases (g.task x).parent with
    | none => rfl
    | some p => simp only [ih]; rw [visited]; rfl

/-- **The task that is adopted** is what is met last. -/
theorem Visits.chainRoot_eq {top x : TaskId} {l : List TaskId} (h : Visits (g.below top) x l)
    {n : Nat} (hn : l.length ≤ n) : l.getLast? = some (g.chainRoot top n x) := by
  induction h generalizing n with
  | @stop x hnone =>
    cases n with
    | zero => cases hn
    | succ n =>
      rw [chainRoot]
      rw [below] at hnone
      cases hp : (g.task x).parent with
      | none => rfl
      | some p =>
        rw [hp] at hnone
        by_cases hne : p = top
        · simp only [if_pos hne]; rfl
        · simp [Option.filter, hne] at hnone
  | @step x y l hsome hrest ih =>
    cases n with
    | zero => cases hn
    | succ n =>
      rw [below] at hsome
      obtain ⟨hp, hne⟩ := Option.filter_eq_some_iff.1 hsome
      have hne : y ≠ top := by simpa using hne
      rw [chainRoot, hp]
      simp only [if_neg hne]
      rw [← ih (by simpa using hn)]
      cases hrest <;> rfl

/-! ## In a well-formed graph -/

section WellFormed

variable (h : g.WellFormed)
include h

/-- **The loop over the origins around one ends**, and so there is a provenance. -/
theorem WellFormed.visits_origins {o : OriginId} (ho : g.HasOrigin o) :
    ∃ l, Visits g.outer o l ∧ l.Nodup ∧ (∀ m ∈ l, g.HasOrigin m) ∧
      g.provenance o = (l.map g.origin).reverse := by
  obtain ⟨l, hl, hmem, hnodup, hlength⟩ := exists_visits g.outer (P := g.HasOrigin) OriginId.index
    (fun o p ho hp => h.origins o ho p hp) ho
  refine ⟨l, hl, hnodup, fun m hm => (hmem m hm).1, ?_⟩
  unfold HasOrigin at ho
  rw [provenance, chain_visited, hl.visited_eq (by omega)]

/-- **The loop over the parents of a task ends**, and so there are its ancestors. -/
theorem WellFormed.visits_parents {x : TaskId} (hx : g.HasTask x) :
    ∃ l, Visits g.parentOf x l ∧ l.Nodup ∧ (∀ y ∈ l, g.HasTask y) ∧ g.ancestors x = l.tail := by
  obtain ⟨l, hl, hmem, hnodup, hlength⟩ := exists_visits g.parentOf (P := g.HasTask) TaskId.index
    (fun x p hx hp => (h.tasks x hx).parent p hp) hx
  refine ⟨l, hl, hnodup, fun y hy => (hmem y hy).1, ?_⟩
  unfold HasTask at hx
  rw [ancestors, climb_visited, hl.visited_eq (by omega)]

/-- **The search for the task that a directive adopts ends.** -/
theorem WellFormed.visits_below (top : TaskId) {x : TaskId} (hx : g.HasTask x) :
    ∃ l, Visits (g.below top) x l ∧ l.Nodup ∧ (∀ y ∈ l, g.HasTask y) ∧
      l.getLast? = some (g.chainRoot top g.tasks.size x) := by
  obtain ⟨l, hl, hmem, hnodup, hlength⟩ := exists_visits (g.below top) (P := g.HasTask) TaskId.index
    (fun x p hx hp => (h.tasks x hx).parent p (Option.filter_eq_some_iff.1 hp).1) hx
  refine ⟨l, hl, hnodup, fun y hy => (hmem y hy).1, ?_⟩
  unfold HasTask at hx
  exact Visits.chainRoot_eq hl (by omega)

end WellFormed

end Graph

end Runlist

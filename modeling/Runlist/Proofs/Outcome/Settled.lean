import Runlist.Proofs.Outcome.Layers

/-!
# Results that settle

A result that is computed with a bound on nesting settles by a number if it is the same one from
there on, and no bound is used up in it. The number grows with each step that uses up one of the
bound, and with nothing else.

* `Bounded`: a step of loading that does not use up the bound on dependencies.
* `layers_bounded`, `readNamed_bounded`: **to read files never uses it up**, nor do dependencies.
* `SettlesBy`: the result is the same from a bound on.
* `SettlesBy.succ`: a step that uses up one of the bound.
* `SettlesBy.bind`, `SettlesBy.after`, `SettlesBy.concatEach`, `SettlesBy.within`: one rule for each
  way to go on.
-/

namespace Runlist

variable {site : Site} {α β : Type}

/-! ## Loading -/

/-- The bound on nested dependencies is not used up. -/
def Bounded (x : Except LoadError α) : Prop := x ≠ .error .tooDeep

namespace Bounded

theorem ok (a : α) : Bounded (.ok a) := fun h => nomatch h

theorem mapError {ε : Type} {x : Except ε α} {f : ε → LoadError} (h : ∀ e, f e ≠ .tooDeep) :
    Bounded (x.mapError f) := by
  intro hfail
  obtain ⟨e, -, he⟩ := mapError_error.1 hfail
  exact h e he

theorem bind {x : Except LoadError α} {f : α → Except LoadError β} (h : Bounded x)
    (hf : ∀ a, x = .ok a → Bounded (f a)) : Bounded (x >>= f) := by
  intro hfail
  rcases except_bind_error.1 hfail with hfail | ⟨a, ha, hfail⟩
  · exact h hfail
  · exact hf a ha hfail

theorem mapM {f : α → Except LoadError β} {l : List α} (h : ∀ a ∈ l, Bounded (f a)) :
    Bounded (l.mapM f) := by
  intro hfail
  obtain ⟨front, a, back, rfl, -, ha⟩ := mapM_error_iff.1 hfail
  exact h a (List.mem_append_right _ List.mem_cons_self) ha

theorem foldlM {f : β → α → Except LoadError β} {l : List α}
    (h : ∀ b, ∀ a ∈ l, Bounded (f b a)) (b : β) : Bounded (l.foldlM f b) := by
  intro hfail
  obtain ⟨b', a, ha, hfail⟩ := foldlM_error hfail
  exact h b' a ha hfail

theorem concatEach {f : α → Except LoadError (List β)} {l : List α} (h : ∀ a ∈ l, Bounded (f a)) :
    Bounded (concatEach f l) := by
  intro hfail
  obtain ⟨a, hmem, ha⟩ := concatEach_error hfail
  exact h a hmem ha

end Bounded

theorem findRole_bounded (site : Site) (name : String) : Bounded (site.findRole name) := by
  unfold Site.findRole
  dsimp only
  split
  · exact .ok _
  · exact fun h => nomatch h

theorem readTasks_bounded (site : Site) (path : FilePath) : Bounded (site.readTasks path) := by
  unfold Site.readTasks
  split
  · exact fun h => nomatch h
  · exact .mapError fun _ h => nomatch h

theorem readPlaybook_bounded (site : Site) (path : FilePath) :
    Bounded (site.readPlaybook path) := by
  unfold Site.readPlaybook
  cases site.disk.read path with
  | error e => exact fun h => nomatch h
  | ok text => exact .ok _

theorem readBelow_bounded (selection : RoleSelection) (dir : FilePath) (text : RoleText)
    (names : List String) : Bounded (site.readBelow selection dir text names) := by
  cases names with
  | nil => exact .ok text
  | cons folder file =>
    rw [Site.readBelow]
    unfold Site.readRoleFile
    split
    · split
      · exact (readTasks_bounded site _).bind fun _ _ => .ok _
      · exact .ok text
    · split <;> exact .ok _
    · split <;> exact .ok _
    · split
      · split <;> exact .ok _
      · exact .ok text
    · exact .ok text

theorem readNamed_bounded (site : Site) (name : String) (selection : RoleSelection) :
    Bounded (site.readNamed name selection) := by
  refine (findRole_bounded site name).bind fun dir _ => Bounded.bind ?_ fun _ _ => .ok _
  unfold Site.readRoleAt
  cases site.disk.filesBelow dir with
  | error e => exact fun h => nomatch h
  | ok files => exact .foldlM (fun text names _ => readBelow_bounded selection dir text names) _

theorem readHeads_bounded (site : Site) (names : List String) : Bounded (site.readHeads names) :=
  .mapM fun name _ => (readNamed_bounded site name .main).bind fun _ _ => .ok _

theorem readPlays_bounded (site : Site) (path : FilePath) (around : List Origin) :
    Bounded (site.readPlays path around) := by
  refine (readPlaybook_bounded site path).bind fun ds _ => .mapM fun d _ => ?_
  exact Bounded.bind (.mapM fun name _ => readNamed_bounded site name .main) fun _ _ => .ok _

theorem dependencies_bounded (site : Site) (r : RoleNode) : Bounded (r.dependencies site) :=
  .mapM fun reference _ => (readNamed_bounded site reference.1 .main).bind fun _ _ => .ok _

theorem enterName_bounded (path : List String) (name : String) : Bounded (enterName path name) := by
  unfold enterName
  split
  · exact fun h => nomatch h
  · exact .ok _

/-- **A role at the end of a path** does not use up the bound. -/
theorem layersOn_bounded {names path : List String} {n : Nat} {r : NamedHead} (hreal : r.Real site)
    (hpath : site.OnPath names path n r.name) : Bounded (site.layersOn n path r) := by
  induction n generalizing path r with
  | zero =>
    obtain ⟨m, hm⟩ := hpath.pos
    cases hm
  | succ n ih =>
    rw [Site.layersOn]
    refine (enterName_bounded path r.name).bind fun path' henter => ?_
    refine (readHeads_bounded site r.dependencies).bind fun direct hdirect => ?_
    refine Bounded.bind (.concatEach fun d hd => ?_) fun _ _ => .ok _
    obtain ⟨hname, rfl⟩ := enterName_ok henter
    obtain ⟨hnames, hreals⟩ := readHeads_ok hdirect
    refine ih (hreals d hd) (hpath.step hname ?_)
    rw [Site.Leads, ← hreal, ← hnames]
    exact List.mem_map_of_mem hd

/-- **Dependencies never use up the bound** on them. -/
theorem layers_bounded {r : NamedHead} (hreal : r.Real site) : Bounded (site.layers r) :=
  layersOn_bounded hreal (.start site r.name le_rfl)

/-- Variables never use up the bound on dependencies. -/
theorem resolve_bounded {roles : List NamedHead} (hreal : ∀ head ∈ roles, head.Real site)
    (play : Option PlayPlace) (more : List Variables) : Bounded (site.resolve roles play more) := by
  refine Bounded.bind (.concatEach fun head hhead =>
    layers_bounded (hreal head hhead)) fun _ _ => ?_
  refine Bounded.bind ?_ fun _ _ => .ok _
  cases play with
  | none => exact .ok []
  | some p =>
    exact .mapM fun file _ => .mapError fun _ h => nomatch h

/-! ## Expansion -/

/-- The bound on nested expansions is used up, or that on nested dependencies. -/
def ExpandError.Exhausted : ExpandError → Prop
  | .tooDeep => True
  | .load .tooDeep => True
  | .includeFailed _ _ source => source.Exhausted
  | _ => False

theorem ExpandError.exhausted_within (chain : List Origin) (target : String) (err : ExpandError) :
    (ExpandError.within chain target err).Exhausted ↔ err.Exhausted := by
  cases err <;> exact Iff.rfl

/-- No bound is used up in a result. -/
def Final (r : Except ExpandError α) : Prop := ∀ err, r = .error err → ¬ err.Exhausted

namespace Final

theorem ok (a : α) : Final (.ok a) := fun _ h => nomatch h

theorem cyclic (chain : List String) :
    Final (.error (.cyclicInclude chain) : Except ExpandError α) := by
  rintro _ ⟨⟩ h; exact h

theorem load {x : Except LoadError α} (h : Bounded x) : Final (x.mapError .load) := by
  intro err herr
  obtain ⟨e, he, rfl⟩ := mapError_error.1 herr
  cases e with
  | tooDeep => exact fun _ => h he
  | _ => exact id

theorem bind {x : Except ExpandError α} {f : α → Except ExpandError β} (h : Final x)
    (hf : ∀ a, Final (f a)) : Final (x >>= f) := by
  intro err herr
  rcases except_bind_error.1 herr with herr | ⟨a, -, herr⟩
  · exact h err herr
  · exact hf a err herr

theorem within {x : Except ExpandError α} (h : Final x) (chain : List Origin) (target : String) :
    Final (x.mapError (.within chain target)) := by
  intro err herr
  obtain ⟨e, he, rfl⟩ := mapError_error.1 herr
  rw [ExpandError.exhausted_within]
  exact h e he

end Final

/-- **A result settles** by a bound: from there on it is the same, and no bound is used up. -/
def SettlesBy (N : Nat) (o : Nat → Except ExpandError α) : Prop :=
  ∃ r, Final r ∧ ∀ n, N ≤ n → o n = r

namespace SettlesBy

variable {N M : Nat} {o : Nat → Except ExpandError α}

theorem const {r : Except ExpandError α} (h : Final r) : SettlesBy N fun _ => r :=
  ⟨r, h, fun _ _ => rfl⟩

/-- What settles by a bound settles by every larger one. -/
theorem mono (h : SettlesBy N o) (hle : N ≤ M) : SettlesBy M o := by
  obtain ⟨r, hr, h⟩ := h
  exact ⟨r, hr, fun n hn => h n (le_trans hle hn)⟩

/-- A step that uses up one of the bound. -/
theorem succ {o' : Nat → Except ExpandError α} (h : SettlesBy N o) (hstep : ∀ n, o' (n + 1) = o n) :
    SettlesBy (N + 1) o' := by
  obtain ⟨r, hr, h⟩ := h
  refine ⟨r, hr, fun n hn => ?_⟩
  obtain ⟨m, rfl⟩ : ∃ m, n = m + 1 := ⟨n - 1, by omega⟩
  rw [hstep]
  exact h m (by omega)

theorem bind {f : Nat → α → Except ExpandError β} (h : SettlesBy N o)
    (hf : ∀ a, SettlesBy N fun n => f n a) : SettlesBy N fun n => o n >>= f n := by
  obtain ⟨r, hr, h⟩ := h
  cases r with
  | error err =>
    refine ⟨.error err, fun err' herr => ?_, fun n hn => ?_⟩
    · cases herr; exact hr err rfl
    · simp only [h n hn]; rfl
  | ok a =>
    obtain ⟨r', hr', h'⟩ := hf a
    refine ⟨r', hr', fun n hn => ?_⟩
    simp only [h n hn]
    exact h' n hn

/-- What follows a result that does not depend on the bound. -/
theorem after {r : Except ExpandError α} {f : Nat → α → Except ExpandError β} (h : Final r)
    (hf : ∀ a, r = .ok a → SettlesBy N fun n => f n a) : SettlesBy N fun n => r >>= f n := by
  cases r with
  | error err =>
    refine .const (r := .error err) fun err' herr => ?_
    cases herr; exact h err rfl
  | ok a => exact hf a rfl

/-- What follows a step of loading. -/
theorem load {x : Except LoadError α} {f : Nat → α → Except ExpandError β} (h : Bounded x)
    (hf : ∀ a, x = .ok a → SettlesBy N fun n => f n a) :
    SettlesBy N fun n => x.mapError .load >>= f n :=
  after (Final.load h) fun a ha => hf a (mapError_ok.1 ha)

/-- A failure that a directive answers. -/
theorem within (h : SettlesBy N o) (chain : List Origin) (target : String) :
    SettlesBy N fun n => (o n).mapError (.within chain target) := by
  obtain ⟨r, hr, h⟩ := h
  refine ⟨_, hr.within chain target, fun n hn => ?_⟩
  simp only [h n hn]

/-- What an answer is made of settles. -/
theorem map (h : SettlesBy N o) (f : α → β) :
    SettlesBy N fun n => (do return f (← o n) : Except ExpandError β) :=
  h.bind fun a => .const (.ok (f a))

/-- A loop settles if its rounds do. -/
theorem concatEach {f : Nat → α → Except ExpandError (List β)} {l : List α}
    (h : ∀ a ∈ l, SettlesBy N fun n => f n a) : SettlesBy N fun n => concatEach (f n) l := by
  induction l with
  | nil => exact .const (.ok [])
  | cons a l ih =>
    refine (h a List.mem_cons_self).bind fun first => ?_
    have hothers := ih fun a ha => h a (List.mem_cons_of_mem _ ha)
    exact hothers.bind fun others => .const (.ok _)

end SettlesBy

end Runlist

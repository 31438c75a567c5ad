import Runlist.Proofs.Graph.Growth

/-!
# The origins around an origin

* `Graph.lineage`: an origin and the origins around it, itself first. It follows links to older
  origins only, so that it always ends.
* `Graph.Placing`: the links of a graph lead to older origins, as those of a sound graph do.
* `provenance_eq`: the provenance of an origin is its lineage, outermost first.
* `Graph.nearest`: the nearest origin of a kind around an origin.
-/

namespace Runlist.Graph

variable {g g' : Graph} {o m p : OriginId}

/-- An origin and the origins around it, **itself first**. -/
def lineage (g : Graph) (o : OriginId) : List OriginId :=
  o :: match (g.origin o).parent with
    | some p => if p.index < o.index then lineage g p else []
    | none => []
termination_by o.index

theorem lineage_parent (h : (g.origin o).parent = some p) (hlt : p.index < o.index) :
    g.lineage o = o :: g.lineage p := by
  rw [lineage]; simp only [h, if_pos hlt]

theorem lineage_root (h : (g.origin o).parent = none) : g.lineage o = [o] := by
  rw [lineage]; simp only [h]

theorem lineage_cons (g : Graph) (o : OriginId) : g.lineage o = o :: (g.lineage o).tail := by
  rw [lineage]; rfl

theorem self_mem_lineage : o ∈ g.lineage o := by
  rw [lineage_cons]; exact List.mem_cons_self

/-- What is around an origin is older. -/
theorem index_le_of_mem_lineage (h : m ∈ g.lineage o) : m.index ≤ o.index := by
  induction o using lineage.induct with
  | case1 o ih =>
    rw [lineage] at h
    rcases List.mem_cons.1 h with h | h
    · rw [h]
    · split at h
      · rename_i p hp
        split at h
        · rename_i hlt; exact le_of_lt (lt_of_le_of_lt (ih p hlt h) hlt)
        · cases h
      · cases h

/-- **Links lead to older origins.** -/
def Placing (g : Graph) : Prop :=
  ∀ o p, g.HasOrigin o → (g.origin o).parent = some p → p.index < o.index

theorem Placing.has (h : g.Placing) (ho : g.HasOrigin o) (hp : (g.origin o).parent = some p) :
    g.HasOrigin p :=
  lt_trans (h o p ho hp) ho

theorem Placing.lineage (h : g.Placing) (ho : g.HasOrigin o) (hp : (g.origin o).parent = some p) :
    g.lineage o = o :: g.lineage p :=
  lineage_parent hp (h o p ho hp)

theorem HasOrigin.mem (ho : g.HasOrigin o) (hm : m ∈ g.lineage o) : g.HasOrigin m :=
  lt_of_le_of_lt (index_le_of_mem_lineage hm) ho

/-- What comes after an origin in a lineage is around it. -/
theorem lineage_split {before after : List OriginId} (h : g.lineage o = before ++ m :: after) :
    g.lineage m = m :: after := by
  -- down the links to what is around, which have smaller handles
  induction o using lineage.induct generalizing before with
  | case1 o ih =>
    cases before with
    | nil =>
      have hm : o = m := by rw [lineage_cons] at h; exact (List.cons.inj h).1
      rw [← hm, h, hm]; rfl
    | cons a before =>
      rw [lineage] at h
      have htail := (List.cons.inj h).2
      split at htail
      · rename_i p hp
        split at htail
        · rename_i hlt; exact ih p hlt htail
        · cases before <;> cases htail
      · cases before <;> cases htail

theorem mem_lineage_trans (h : m ∈ g.lineage o) (h' : p ∈ g.lineage m) : p ∈ g.lineage o := by
  obtain ⟨before, after, hsplit⟩ := List.append_of_mem h
  rw [hsplit, ← lineage_split hsplit]
  exact List.mem_append_right _ h'

/-- A graph that keeps its origins keeps their lineages. -/
theorem lineage_keeps (h : g.Keeps g') (ho : g.HasOrigin o) : g'.lineage o = g.lineage o := by
  induction o using lineage.induct with
  | case1 o ih =>
    rw [lineage, lineage, h.origin o ho]
    cases hp : (g.origin o).parent with
    | none => rfl
    | some p =>
      simp only
      split
      · rename_i hlt; rw [ih p hlt (lt_trans hlt ho)]
      · rfl

/-- The chain of origins, with enough steps, is the lineage backwards. -/
theorem chain_eq (h : g.Placing) : ∀ n o, g.HasOrigin o → o.index < n →
    g.chain n o = (g.lineage o).reverse.map g.origin := by
  intro n
  induction n with
  | zero => intro o _ hn; omega
  | succ n ih =>
    intro o ho hn
    rw [chain]
    cases hp : (g.origin o).parent with
    | none => simp [lineage_root hp]
    | some p =>
      have hlt := h o p ho hp
      simp only
      rw [ih p (h.has ho hp) (by omega), h.lineage ho hp]
      simp

/-- **The provenance of an origin is its lineage, outermost first.** -/
theorem provenance_eq (h : g.Placing) (ho : g.HasOrigin o) :
    g.provenance o = (g.lineage o).reverse.map g.origin :=
  chain_eq h _ o ho ho

/-- The nearest origin of a kind among some. -/
def first (g : Graph) (kind : OriginKind) (l : List OriginId) : Option OriginId :=
  l.find? fun m => (g.origin m).kind == kind

/-- **The nearest origin of a kind** around an origin, which itself counts. -/
def nearest (g : Graph) (kind : OriginKind) (o : OriginId) : Option OriginId :=
  g.first kind (g.lineage o)

/-- The nearest origin of a kind around an origin, which itself does not count. -/
def above (g : Graph) (kind : OriginKind) (o : OriginId) : Option OriginId :=
  g.first kind (g.lineage o).tail

theorem nearest_self {kind : OriginKind} (hk : (g.origin o).kind = kind) :
    g.nearest kind o = some o := by
  rw [nearest, first, lineage_cons, List.find?_cons, hk]; simp

theorem above_root {kind : OriginKind} (hp : (g.origin o).parent = none) :
    g.above kind o = none := by
  rw [above, lineage_root hp]; rfl

/-- What is above an origin is what is nearest to its parent. -/
theorem Placing.above_parent (h : g.Placing) (ho : g.HasOrigin o)
    (hp : (g.origin o).parent = some p) (kind : OriginKind) :
    g.above kind o = g.nearest kind p := by
  rw [above, h.lineage ho hp]; rfl

/-- An origin of another kind does not count. -/
theorem nearest_above {kind : OriginKind} (hk : (g.origin o).kind ≠ kind) :
    g.nearest kind o = g.above kind o := by
  have hb : ((g.origin o).kind == kind) = false := by simpa using hk
  rw [nearest, above, first, lineage_cons, List.find?_cons, hb]; rfl

theorem Placing.nearest_parent (h : g.Placing) (ho : g.HasOrigin o)
    (hp : (g.origin o).parent = some p) {kind : OriginKind} (hk : (g.origin o).kind ≠ kind) :
    g.nearest kind o = g.nearest kind p := by
  rw [nearest_above hk, h.above_parent ho hp]

theorem first_keeps (h : g.Keeps g') {kind : OriginKind} {l : List OriginId}
    (hl : ∀ m ∈ l, g.HasOrigin m) : g'.first kind l = g.first kind l := by
  unfold first
  induction l with
  | nil => rfl
  | cons m l ih =>
    rw [List.find?_cons, List.find?_cons, h.origin m (hl m List.mem_cons_self),
      ih fun m hm => hl m (List.mem_cons_of_mem _ hm)]

theorem above_keeps (h : g.Keeps g') {kind : OriginKind} (ho : g.HasOrigin o) :
    g'.above kind o = g.above kind o := by
  rw [above, above, lineage_keeps h ho]
  exact first_keeps h fun m hm => ho.mem (List.mem_of_mem_tail hm)

/-- What is above an origin is older. -/
theorem Placing.above_lt (h : g.Placing) (ho : g.HasOrigin o) {kind : OriginKind}
    (hm : g.above kind o = some m) : m.index < o.index := by
  have hmem := List.mem_of_find?_eq_some hm
  cases hp : (g.origin o).parent with
  | none => rw [lineage_root hp] at hmem; cases hmem
  | some p =>
    rw [h.lineage ho hp] at hmem
    exact lt_of_le_of_lt (index_le_of_mem_lineage hmem) (h o p ho hp)

theorem nearest_keeps (h : g.Keeps g') {kind : OriginKind} (ho : g.HasOrigin o) :
    g'.nearest kind o = g.nearest kind o := by
  rw [nearest, nearest, lineage_keeps h ho]
  exact first_keeps h fun m hm => ho.mem hm

end Runlist.Graph

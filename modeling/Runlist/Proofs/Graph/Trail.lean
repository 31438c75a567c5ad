import Runlist.Proofs.Graph.Lineage

/-!
# Trails

What is seen of the origins around an origin, once the handles between them are left out. Two states
in which an entity was loaded from the same documents differ in these handles only.

* `Origin.bare`: an origin without the handle of what is around it.
* `Graph.trail`: an origin and those around it, **itself first**.
* `provenance_bare`: the provenance of an origin, outermost first, is its trail backwards.
-/

namespace Runlist

/-- The origin without the handle of what is around it. -/
def Origin.bare (o : Origin) : Origin := { o with parent := none }

namespace Graph

variable {g g' : Graph} {o p : OriginId}

/-- An origin and the origins around it as they are seen, itself first. -/
def trail (g : Graph) (o : OriginId) : List Origin := (g.lineage o).map fun m => (g.origin m).bare

/-- The trail of an origin that may be missing. -/
def trailOf (g : Graph) (o : Option OriginId) : List Origin := (o.map g.trail).getD []

@[simp]
theorem trailOf_some : g.trailOf (some o) = g.trail o := rfl

/-- The trail of an origin goes on with that of what is around it. -/
theorem Placing.trail (h : g.Placing) (ho : g.HasOrigin o) :
    g.trail o = (g.origin o).bare :: g.trailOf (g.origin o).parent := by
  cases hp : (g.origin o).parent with
  | none => rw [Graph.trail, lineage_root hp]; rfl
  | some p => rw [Graph.trail, h.lineage ho hp]; rfl

theorem trail_keeps (h : g.Keeps g') (ho : g.HasOrigin o) : g'.trail o = g.trail o := by
  rw [trail, trail, lineage_keeps h ho]
  refine List.map_congr_left fun m hm => ?_
  rw [h.origin m (ho.mem hm)]

theorem trailOf_keeps (h : g.Keeps g') {o : Option OriginId}
    (ho : ∀ o', o = some o' → g.HasOrigin o') : g'.trailOf o = g.trailOf o := by
  cases o with
  | none => rfl
  | some o => exact trail_keeps h (ho o rfl)

/-- **The provenance of an origin** is its trail backwards. -/
theorem provenance_bare (h : g.Placing) (ho : g.HasOrigin o) :
    (g.provenance o).map Origin.bare = (g.trail o).reverse := by
  rw [provenance_eq h ho, trail, List.map_map, ← List.map_reverse]; rfl

end Graph

end Runlist

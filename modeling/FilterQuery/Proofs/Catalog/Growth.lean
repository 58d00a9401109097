import FilterQuery.Proofs.Catalog.Walks

/-!
Catalogs that grow. Entities may come in, and old ones may get more fields and, behind those they have,
more associations. Main statement: what has been found in a catalog is found in a larger one
(`Leads.grown`).
-/
namespace FilterQuery

open Text

/-- The association found under a name is the first of several, so that later ones do not hide it. -/
theorem Entity.association?_of_isPrefix {e f : Entity} (more : e.associations <+: f.associations)
    {name : String} {a : Association} (found : e.association? name = some a) :
    f.association? name = some a := by
  obtain ⟨added, shape⟩ := more
  unfold Entity.association? at found ⊢
  rw [← shape, List.find?_append, found, Option.some_or]

namespace Catalog

/-- Every entity of the one catalog is in the other, with at least the same fields, and with the same
associations in front of any others. -/
def GrowsTo (c d : Catalog) : Prop :=
  ∀ name e, c.get? name = some e →
    ∃ f, d.get? name = some f ∧ e.fields ⊆ f.fields ∧ e.associations <+: f.associations

instance (c d : Catalog) : Decidable (c.GrowsTo d) :=
  decidable_of_iff (∀ entry ∈ c.entries, ∃ f ∈ d.get? entry.1,
      entry.2.fields ⊆ f.fields ∧ entry.2.associations <+: f.associations) (by
    simp only [GrowsTo, Table.get?_eq_some_iff c, Prod.forall, Option.mem_def])

variable {c d : Catalog} {entity path field : String} {steps : List Association}

theorem Route.grown (grown : c.GrowsTo d) (route : c.Route entity steps) : d.Route entity steps := by
  induction route with
  | start entity => exact .start entity
  | step known found _ ih =>
    obtain ⟨f, declared, _, more⟩ := grown _ _ known
    exact .step declared (Entity.association?_of_isPrefix more found) ih

theorem Leads.grown (grown : c.GrowsTo d) (leads : c.Leads entity path steps field) :
    d.Leads entity path steps field where
  segments_eq := leads.segments_eq
  route := leads.route.grown grown
  declared := by
    obtain ⟨e, known, isField⟩ := leads.declared
    obtain ⟨f, declared, more, _⟩ := grown _ _ known
    have member : field ∈ e.fields := by simpa [Entity.hasField] using isField
    exact ⟨f, declared, by simpa [Entity.hasField] using more member⟩

theorem resolveProperty_grown (grown : c.GrowsTo d) {resolved : String}
    (ok : c.resolveProperty entity path = .ok resolved) : d.resolveProperty entity path = .ok resolved := by
  obtain ⟨same, steps, field, leads⟩ := resolveProperty_eq_ok_iff.mp ok
  exact resolveProperty_eq_ok_iff.mpr ⟨same, steps, field, leads.grown grown⟩

theorem chain_grown (grown : c.GrowsTo d) (ok : c.chain entity path = .ok steps) :
    d.chain entity path = .ok steps := by
  obtain ⟨route, names⟩ := walk_eq_ok_iff.mp ok
  exact walk_eq_ok_iff.mpr ⟨route.grown grown, names⟩

theorem resolveAssociation_grown (grown : c.GrowsTo d) {there : Destination}
    (ok : c.resolveAssociation entity path = .ok there) : d.resolveAssociation entity path = .ok there := by
  obtain ⟨steps, last, walked, rest⟩ := resolveAssociation_eq_ok_iff.mp ok
  exact resolveAssociation_eq_ok_iff.mpr ⟨steps, last, chain_grown grown walked, rest⟩

end Catalog

end FilterQuery

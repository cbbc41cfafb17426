import Pwos.Portfolio.Dca

/-!
# Entries of assets that are gone

`features/rwa/orphanFilter.ts`: the read models hide an entry as soon as one of its lines is
about an asset that was deleted or has lost its registry row.
-/

namespace Pwos

def Db.isInactiveOrOrphanedRwaAsset (db : Db) (a : Asset) : Prop :=
  a.deleted = true ∨ db.isOrphanedRwaAsset a

instance (db : Db) (a : Asset) : Decidable (db.isInactiveOrOrphanedRwaAsset a) :=
  inferInstanceAs (Decidable (_ ∨ _))

def Db.entryReferencesInactiveRwa (db : Db) (entryId : Uuid) : Prop :=
  ∃ p ∈ db.postings, p.entryId = entryId ∧
    ∃ a ∈ db.assets, a.id = p.assetId ∧ db.isInactiveOrOrphanedRwaAsset a

instance (db : Db) (entryId : Uuid) : Decidable (db.entryReferencesInactiveRwa entryId) :=
  inferInstanceAs (Decidable (∃ p ∈ db.postings, _))

/-- While every asset is live, no entry is hidden. -/
theorem not_entryReferencesInactiveRwa {db : Db}
    (h : ∀ a ∈ db.assets, ¬ db.isInactiveOrOrphanedRwaAsset a) (entryId : Uuid) :
    ¬ db.entryReferencesInactiveRwa entryId := by
  rintro ⟨p, -, -, a, ha, -, hgone⟩
  exact h a ha hgone

end Pwos

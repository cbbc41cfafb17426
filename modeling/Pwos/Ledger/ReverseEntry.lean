import Pwos.Ledger.PostEntry

/-!
# Reversing an entry

`reverseEntry` of `features/ledger/service.ts`: restore the lots, mirror the postings in
a void entry, void the original.
-/

namespace Pwos

/-- The body of the loop over the lots the entry opened. -/
def closeOpenedLot (l : Lot) : Sql Unit := do
  Tx.require (l.qtyOpened ≤ l.qtyRemaining) .lotsPartlySold
  updateRemaining l.id l.qtyRemaining 0

/-- The body of the loop over the consumptions of the entry. -/
def restoreLot (c : LotConsumption) : Sql Unit := do
  match ← Tx.read (·.findLot c.lotId) with
  | none => pure ()
  | some l => updateRemaining l.id l.qtyRemaining (l.qtyRemaining + c.quantity)

def Posting.mirrored (entryId : Uuid) (p : Posting) : Posting :=
  ⟨entryId, p.accountId, p.assetId, -p.quantity, -p.baseValue, some "reversal"⟩

def JournalEntry.reversalRow (original : JournalEntry) (id : Uuid) (today : IsoDate) :
    JournalEntry :=
  { id, userId := original.userId, entryDate := today, type := .adjustment
    description := "ابطال: " ++ original.description, status := .void
    reversalOf := some original.id, source := .manual }

/-- The transition posted → void; no row if the entry is not posted. -/
def voidEntry (entryId : Uuid) : Sql Unit :=
  Tx.insert (fun _ => [.entry entryId]) (·.Posted entryId) (fun _ => [.setVoid entryId])
    .entryAlreadyVoid

def reverseEntry (env : Env) (entryId : Uuid) : Sql PostResult := do
  Tx.lock (fun _ => [.entry entryId]) fun _ => ()
  match ← Tx.read (·.findEntry entryId) with
  | none => .fail .entryNotFound
  | some original =>
    Tx.require (original.status ≠ .void) .entryAlreadyVoid
    let openLots ← Tx.read (·.lotsOpenedBy entryId)
    Tx.each openLots closeOpenedLot
    let consumptions ← Tx.read (·.consumptionsOf entryId)
    Tx.each consumptions restoreLot
    Tx.when (consumptions ≠ []) do
      Tx.write (fun _ => []) (fun _ => [.deleteConsumptions entryId])
    let lines ← Tx.read (·.postingsOf entryId)
    insertEntry (original.reversalRow env.entryId env.today)
    insertPostings (lines.map (Posting.mirrored env.entryId))
    voidEntry entryId
    pure ⟨env.entryId, false⟩

end Pwos

import Pwos.Ledger.Spending

/-!
# External capital

`features/analytics/capitalFlows.ts` over `getCapitalFlowRecords` of `features/ledger/queries.ts`.
The rows are single legs. An entry is classified by its type and by words of its description, and
then only the legs of one direction count, so an entry counts with the net value of its legs
exactly as far as the other legs add up to nothing (`netExternalCapitalFlow_iff`).
-/

namespace Pwos

/-! ## The rows -/

structure CapitalFlowRecord where
  id : Uuid
  entryDate : IsoDate
  type : EntryType
  description : String
  reference : Option String
  baseValue : Decimal
  deriving DecidableEq, Repr

section Records
variable (db : Db)

/-- The posted entries of the period, of the user. -/
def Db.periodEntries (periodStart periodEnd : IsoDate) (r : Reader) : List JournalEntry :=
  if r.refused then []
  else (db.reported r).filter fun e => periodStart ≤ e.entryDate ∧ e.entryDate ≤ periodEnd

/-- The legs on asset accounts, but for assets that are gone. -/
def Db.assetLegs (e : JournalEntry) : List Posting :=
  (db.postingsOf e.id).filter fun p =>
    ((db.findAccount p.accountId).any (·.type = .asset)) &&
      (db.findAsset p.assetId).any fun a => a.deleted = false ∧ ¬ db.isOrphanedRwaAsset a

def JournalEntry.capitalFlowRecord (e : JournalEntry) (p : Posting) : CapitalFlowRecord where
  id := e.id
  entryDate := e.entryDate
  type := e.type
  description := e.description
  reference := e.reference
  baseValue := p.baseValue

def getCapitalFlowRecords (periodStart periodEnd : IsoDate) (r : Reader) :
    List CapitalFlowRecord :=
  (db.periodEntries periodStart periodEnd r).flatMap fun e =>
    (db.assetLegs e).map e.capitalFlowRecord

end Records

/-! ## The classes -/

inductive CapitalFlowType where
  | deposit | withdrawal | openingBalance
  deriving DecidableEq, Repr

structure CapitalFlowItem where
  id : Uuid
  entryDate : IsoDate
  type : CapitalFlowType
  amount : Decimal
  /-- The reference, or else the id. -/
  sourceReference : String ⊕ Uuid
  description : String
  deriving DecidableEq, Repr

/-- `text.includes(part)`. -/
def includes (text part : String) : Bool := part.toList <:+: text.toList

def isOpening (type : EntryType) (description : String) : Bool :=
  type = .opening || includes description "افتتاحیه"

def isCapitalDeposit (description : String) : Bool :=
  includes description "تزریق سرمایه" || includes description "واریز اولیه" ||
    includes description "Capital Deposit"

def isCapitalWithdrawal (description : String) : Bool :=
  includes description "برداشت سرمایه" || includes description "Capital Withdrawal"

structure FlowTotals where
  inflows : List CapitalFlowItem
  outflows : List CapitalFlowItem
  netInflows : Decimal
  netOutflows : Decimal
  deriving DecidableEq, Repr

def CapitalFlowRecord.item (r : CapitalFlowRecord) (type : CapitalFlowType) (amount : Decimal) :
    CapitalFlowItem where
  id := r.id
  entryDate := r.entryDate
  type := type
  amount := amount
  sourceReference := r.reference.elim (.inr r.id) .inl
  description := r.description

def FlowTotals.next (t : FlowTotals) (r : CapitalFlowRecord) : FlowTotals :=
  if isCapitalWithdrawal r.description then
    if r.baseValue < 0 then
      { t with
        outflows := t.outflows ++ [r.item .withdrawal r.baseValue.abs]
        netOutflows := t.netOutflows + r.baseValue.abs }
    else t
  else if isOpening r.type r.description || isCapitalDeposit r.description then
    if 0 < r.baseValue then
      let type := if isOpening r.type r.description then .openingBalance else .deposit
      { t with
        inflows := t.inflows ++ [r.item type r.baseValue]
        netInflows := t.netInflows + r.baseValue }
    else t
  else t

structure CapitalFlowsSummary where
  inflows : List CapitalFlowItem
  outflows : List CapitalFlowItem
  netExternalCapitalFlow : Decimal
  deriving DecidableEq, Repr

def getExternalCapitalFlows (db : Db) (r : Reader)
    (periodStart : IsoDate := .ofParts 2025 1 1) (periodEnd : IsoDate := .ofParts 2026 8 2) :
    CapitalFlowsSummary :=
  let t := (getCapitalFlowRecords db periodStart periodEnd r).foldl FlowTotals.next ⟨[], [], 0, 0⟩
  { inflows := t.inflows, outflows := t.outflows
    netExternalCapitalFlow := t.netInflows - t.netOutflows }

/-! ## What counts -/

/-- The class of an entry, if it is capital. -/
def capitalClass (type : EntryType) (description : String) : Option CapitalFlowType :=
  if isCapitalWithdrawal description then some .withdrawal
  else if isOpening type description then some .openingBalance
  else if isCapitalDeposit description then some .deposit
  else none

def JournalEntry.capitalClass (e : JournalEntry) : Option CapitalFlowType :=
  Pwos.capitalClass e.type e.description

/-- The value goes against the direction of the class. -/
def CapitalFlowType.Against : CapitalFlowType → Decimal → Prop
  | .withdrawal, v => 0 < v
  | _, v => v < 0

instance : ∀ (c : CapitalFlowType) (v : Decimal), Decidable (c.Against v)
  | .withdrawal, v => inferInstanceAs (Decidable (0 < v))
  | .deposit, v => inferInstanceAs (Decidable (v < 0))
  | .openingBalance, v => inferInstanceAs (Decidable (v < 0))

/-- What a leg adds to the flow. -/
def counted (c : Option CapitalFlowType) (v : Decimal) : Decimal :=
  match c with
  | none => 0
  | some c => if c.Against v then 0 else v

theorem counted_withdrawal {v : Decimal} (h : v < 0) : counted (some .withdrawal) v = -v.abs := by
  have habs : v.abs = -v := if_pos h
  rw [habs, neg_neg]
  exact if_neg h.not_gt

theorem counted_zero (c : Option CapitalFlowType) : counted c 0 = 0 := by
  unfold counted
  split
  · rfl
  · exact ite_self 0

theorem counted_inflow {c : CapitalFlowType} {v : Decimal} (hc : c ≠ .withdrawal) (h : 0 < v) :
    counted (some c) v = v := by
  cases c with
  | withdrawal => exact absurd rfl hc
  | deposit => exact if_neg h.not_gt
  | openingBalance => exact if_neg h.not_gt

theorem counted_not_inflow {c : CapitalFlowType} {v : Decimal} (hc : c ≠ .withdrawal)
    (h : ¬ 0 < v) : counted (some c) v = 0 := by
  rcases (not_lt.mp h).eq_or_lt with rfl | hneg
  · exact counted_zero _
  · cases c with
    | withdrawal => exact absurd rfl hc
    | deposit => exact if_pos hneg
    | openingBalance => exact if_pos hneg

theorem counted_not_outflow {v : Decimal} (h : ¬ v < 0) : counted (some .withdrawal) v = 0 := by
  rcases (not_lt.mp h).eq_or_lt with rfl | hpos
  · exact counted_zero _
  · exact if_pos hpos

theorem flow_next (t : FlowTotals) (r : CapitalFlowRecord) :
    (t.next r).netInflows - (t.next r).netOutflows =
      t.netInflows - t.netOutflows + counted (capitalClass r.type r.description) r.baseValue := by
  unfold FlowTotals.next capitalClass
  by_cases hout : isCapitalWithdrawal r.description
  · rw [if_pos hout, if_pos hout]
    split
    · rename_i hneg
      rw [counted_withdrawal hneg, ← sub_eq_add_neg, sub_sub]
    · rename_i hneg
      rw [counted_not_outflow hneg, add_zero]
  rw [if_neg hout, if_neg hout]
  by_cases hin : isOpening r.type r.description || isCapitalDeposit r.description
  · rw [if_pos hin]
    -- an opening or a deposit: the two count alike
    obtain ⟨c, hc, hclass⟩ : ∃ c : CapitalFlowType, c ≠ .withdrawal ∧
        (if isOpening r.type r.description then some .openingBalance
          else if isCapitalDeposit r.description then some .deposit else none) = some c := by
      by_cases hopen : isOpening r.type r.description
      · exact ⟨.openingBalance, nofun, if_pos hopen⟩
      · rw [Bool.or_eq_true] at hin
        exact ⟨.deposit, nofun, by rw [if_neg hopen, if_pos (hin.resolve_left hopen)]⟩
    rw [hclass]
    split
    · rename_i hpos
      rw [counted_inflow hc hpos, add_sub_right_comm]
    · rename_i hpos
      rw [counted_not_inflow hc hpos, add_zero]
  · rw [if_neg hin]
    rw [Bool.or_eq_true, not_or] at hin
    rw [if_neg hin.1, if_neg hin.2]
    exact (add_zero _).symm

theorem flow_foldl (rows : List CapitalFlowRecord) (t : FlowTotals) :
    (rows.foldl FlowTotals.next t).netInflows - (rows.foldl FlowTotals.next t).netOutflows =
      t.netInflows - t.netOutflows +
        (rows.map fun r => counted (capitalClass r.type r.description) r.baseValue).sum := by
  induction rows generalizing t with
  | nil => simp
  | cons r rows ih => rw [List.foldl_cons, ih, flow_next, List.map_cons, List.sum_cons, add_assoc]

section Counts
variable (db : Db)

/-- The base values of the asset legs of an entry. -/
def Db.legValues (e : JournalEntry) : List Decimal := (db.assetLegs e).map (·.baseValue)

/-- The values of its legs that go against the direction of its class. -/
def Db.legsAgainst (e : JournalEntry) : List Decimal :=
  (db.legValues e).filter fun v => e.capitalClass.any (·.Against v)

/-- What the entry adds to the flow. -/
def Db.capitalFlow (e : JournalEntry) : Decimal :=
  ((db.legValues e).map (counted e.capitalClass)).sum

variable {db} {e : JournalEntry}

theorem netExternalCapitalFlow_eq (r : Reader) (periodStart periodEnd : IsoDate) :
    (getExternalCapitalFlows db r periodStart periodEnd).netExternalCapitalFlow =
      ((db.periodEntries periodStart periodEnd r).map db.capitalFlow).sum := by
  unfold getExternalCapitalFlows getCapitalFlowRecords
  dsimp only
  rw [flow_foldl, sub_zero, zero_add]
  induction db.periodEntries periodStart periodEnd r with
  | nil => rfl
  | cons e entries ih =>
    rw [List.flatMap_cons, List.map_append, List.sum_append, ih, List.map_cons, List.sum_cons,
      Db.capitalFlow, Db.legValues, List.map_map, List.map_map]
    rfl

/-- The net value of the legs is what counts and what does not. -/
theorem sum_legValues (h : e.capitalClass.isSome) :
    (db.legValues e).sum = db.capitalFlow e + (db.legsAgainst e).sum := by
  unfold Db.capitalFlow Db.legsAgainst
  obtain ⟨c, hc⟩ := Option.isSome_iff_exists.mp h
  rw [hc]
  induction db.legValues e with
  | nil => simp
  | cons v vs ih =>
    rw [List.sum_cons, ih, List.map_cons, List.sum_cons]
    by_cases hv : c.Against v
    · have hzero : counted (some c) v = 0 := if_pos hv
      rw [List.filter_cons_of_pos (by simpa using hv), List.sum_cons, hzero]
      abel
    · have hkept : counted (some c) v = v := if_neg hv
      rw [List.filter_cons_of_neg (by simpa using hv), hkept, add_assoc]

theorem capitalFlow_none (h : e.capitalClass = none) : db.capitalFlow e = 0 := by
  unfold Db.capitalFlow
  rw [h]
  exact List.sum_map_zero

theorem legsAgainst_none (h : e.capitalClass = none) : db.legsAgainst e = [] := by
  simp [Db.legsAgainst, h]

theorem sum_neg_of {vs : List Decimal} (h : ∀ v ∈ vs, v < 0) (hne : vs ≠ []) : vs.sum < 0 := by
  have hpos : 0 < (vs.map (-·)).sum := by
    refine List.sum_pos _ (fun w hw => ?_) (by simpa using hne)
    obtain ⟨v, hv, rfl⟩ := List.mem_map.mp hw
    exact neg_pos.mpr (h v hv)
  rw [← List.sum_neg] at hpos
  exact neg_pos.mp hpos

/-- Legs against one direction do not cancel each other. -/
theorem legsAgainst_eq_nil (h : (db.legsAgainst e).sum = 0) : db.legsAgainst e = [] := by
  cases hc : e.capitalClass with
  | none => exact legsAgainst_none hc
  | some c =>
    have hall : ∀ v ∈ db.legsAgainst e, c.Against v := by
      intro v hv
      simpa [Db.legsAgainst, hc] using (List.mem_filter.mp hv).2
    by_contra hne
    cases c with
    | withdrawal => exact (List.sum_pos _ hall hne).ne' h
    | deposit => exact (sum_neg_of hall hne).ne h
    | openingBalance => exact (sum_neg_of hall hne).ne h

/-- The net flow is what the entries classified as capital are worth on their asset legs if and
only if the legs against the direction of their class cancel. One entry with legs that add up to
nothing counts as nothing if and only if no leg is against its direction. -/
theorem netExternalCapitalFlow_iff (db : Db) (r : Reader) (periodStart periodEnd : IsoDate) :
    ((getExternalCapitalFlows db r periodStart periodEnd).netExternalCapitalFlow =
        (((db.periodEntries periodStart periodEnd r).filter (·.capitalClass.isSome)).map
          fun e => (db.legValues e).sum).sum ↔
      (((db.periodEntries periodStart periodEnd r).map fun e => (db.legsAgainst e).sum).sum = 0)) ∧
    ∀ e, e.capitalClass.isSome → (db.legValues e).sum = 0 →
      (db.capitalFlow e = 0 ↔ db.legsAgainst e = []) := by
  constructor
  · have hsplit : ∀ entries : List JournalEntry,
        ((entries.filter (·.capitalClass.isSome)).map fun e => (db.legValues e).sum).sum =
          (entries.map db.capitalFlow).sum +
            (entries.map fun e => (db.legsAgainst e).sum).sum := by
      intro entries
      induction entries with
      | nil => simp
      | cons e entries ih =>
        rw [List.map_cons, List.sum_cons, List.map_cons, List.sum_cons]
        cases hc : e.capitalClass with
        | none =>
          rw [List.filter_cons_of_neg (by simp [hc]), ih, capitalFlow_none hc,
            legsAgainst_none hc, List.sum_nil, zero_add, zero_add]
        | some c =>
          have hsome : e.capitalClass.isSome = true := by rw [hc]; rfl
          rw [List.filter_cons_of_pos (p := fun e : JournalEntry => e.capitalClass.isSome) hsome,
            List.map_cons, List.sum_cons, ih, sum_legValues hsome]
          abel
    rw [netExternalCapitalFlow_eq, hsplit]
    exact left_eq_add
  · intro e hclass hsum
    have hnet : (db.legValues e).sum = _ := sum_legValues hclass
    rw [hsum] at hnet
    constructor
    · intro hflow
      rw [hflow, zero_add] at hnet
      exact legsAgainst_eq_nil hnet.symm
    · intro hnone
      rw [hnone, List.sum_nil, add_zero] at hnet
      exact hnet.symm

end Counts

/-- A transfer of a hundred dollars between two accounts, with words of a deposit. -/
def demoTransfer : Db :=
  { users := [1]
    assets := [⟨1, "USD", "CASH", false⟩]
    accounts := [⟨11, 0, some 1, "1010", "بانک", .asset, some 1, false⟩,
      ⟨12, 0, some 1, "1011", "صندوق", .asset, some 1, false⟩]
    journalEntries := [{ id := 100, userId := some 1, entryDate := 20260101, type := .transfer
                         description := "تزریق سرمایه به صندوق", status := .posted }]
    postings := [⟨100, 11, 1, .ofInt (-100), .ofInt (-100), none⟩,
      ⟨100, 12, 1, .ofInt 100, .ofInt 100, none⟩] }

/-- The transfer counts as a hundred dollars from outside. -/
theorem demoTransfer_counts :
    (getExternalCapitalFlows demoTransfer ⟨some 1, false⟩).netExternalCapitalFlow = .ofInt 100 ∧
    (getExternalCapitalFlows demoTransfer ⟨some 1, false⟩).netExternalCapitalFlow ≠
      (((demoTransfer.periodEntries (.ofParts 2025 1 1) (.ofParts 2026 8 2) ⟨some 1, false⟩).filter
        (·.capitalClass.isSome)).map fun e => (demoTransfer.legValues e).sum).sum := by
  decide

end Pwos

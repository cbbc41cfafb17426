import Pwos.Lib.Sums
import Pwos.Ledger.Run

/-!
# The journal

Every entry balances, whatever its status; a reversal mirrors its original and is the
only one; void entries never come back. Hence the trial balance is within rounding of
zero.
-/

namespace Pwos

/-- What `assertBalanced` establishes, of the stored rows. -/
structure SoundPostings (ps : List Posting) : Prop where
  two : 2 ≤ ps.length
  nonzero : ∀ p ∈ ps, p.quantity ≠ 0
  balanced : (ps.map Posting.baseValue).sum.abs ≤ TOLERANCE

theorem SoundPostings.mirrored {ps : List Posting} (h : SoundPostings ps) (entryId : Uuid) :
    SoundPostings (ps.map (Posting.mirrored entryId)) where
  two := by simpa using h.two
  nonzero p hp := by
    obtain ⟨q, hq, rfl⟩ := List.mem_map.mp hp
    exact neg_ne_zero.mpr (h.nonzero q hq)
  balanced := by
    have hsum : ((ps.map (Posting.mirrored entryId)).map Posting.baseValue).sum =
        -(ps.map Posting.baseValue).sum := by
      rw [List.map_map, ← sum_map_neg]
      rfl
    rw [hsum, Decimal.abs_le_iff]
    obtain ⟨h₁, h₂⟩ := Decimal.abs_le_iff.mp h.balanced
    exact ⟨neg_le_neg h₂, neg_le.mp h₁⟩

structure JournalInv (db : Db) : Prop where
  sound : ∀ e ∈ db.journalEntries, SoundPostings (db.postingsOf e.id)
  mirror : ∀ r ∈ db.journalEntries, ∀ i, r.reversalOf = some i →
    r.status = .void ∧ (∃ e ∈ db.journalEntries, e.id = i ∧ e.status = .void) ∧
      db.postingsOf r.id = (db.postingsOf i).map (Posting.mirrored r.id)
  once : (db.journalEntries.filterMap (·.reversalOf)).Nodup

theorem Db.EmptyLedger.journalInv {db : Db} (h : db.EmptyLedger) : JournalInv db := by
  constructor <;> simp [h.journalEntries]

section Steps
variable {db : Db} {e : JournalEntry} {ps : List Posting} {ls : List Lot}
  {cs : List LotConsumption} {env : Env}

theorem postingsOf_append {ps : List Posting} {i : Uuid} (hps : ∀ p ∈ ps, p.entryId = i)
    (j : Uuid) : (db.postings ++ ps).filter (·.entryId = j) =
      db.postingsOf j ++ if i = j then ps else [] := by
  rw [List.filter_append, Db.postingsOf]
  congr 1
  split
  · rename_i hij
    exact List.filter_eq_self.mpr fun p hp => by simpa using (hps p hp).trans hij
  · rename_i hij
    exact List.filter_eq_nil_iff.mpr fun p hp => by simpa [hps p hp] using hij

/-- An id that no entry has is not referred to by a posting. -/
theorem postingsOf_fresh (hw : WellFormed db) {i : Uuid} (h : ∀ f ∈ db.journalEntries, f.id ≠ i) :
    db.postingsOf i = [] := by
  refine List.filter_eq_nil_iff.mpr fun p hp => ?_
  obtain ⟨f, hf, hid⟩ := hw.postingEntry p hp
  simpa using hid ▸ h f hf

theorem recorded_postingsOf_old (h : Recordable db e ps ls cs) {f : JournalEntry}
    (hf : f ∈ db.journalEntries) : (db.recorded e ps ls cs).postingsOf f.id = db.postingsOf f.id := by
  unfold Db.recorded
  rw [Db.postingsOf, postingsOf_append h.postings, if_neg (Ne.symm (h.insertable.1 f hf)),
    List.append_nil]

theorem recorded_postingsOf_new (hw : WellFormed db) (h : Recordable db e ps ls cs) :
    (db.recorded e ps ls cs).postingsOf e.id = ps := by
  unfold Db.recorded
  rw [Db.postingsOf, postingsOf_append h.postings, if_pos rfl,
    postingsOf_fresh hw h.insertable.1, List.nil_append]

/-- The consumptions of a new entry are its own. -/
theorem recorded_consumptionsOf_new (hw : WellFormed db) (h : Recordable db e ps ls cs) :
    (db.recorded e ps ls cs).consumptionsOf e.id = cs := by
  have hold : db.lotConsumptions.filter (·.entryId = e.id) = [] := by
    refine List.filter_eq_nil_iff.mpr fun c hc => ?_
    obtain ⟨f, hf, hid, -⟩ := hw.consumptionEntry c hc
    simpa using hid ▸ h.insertable.1 f hf
  have hnew : cs.filter (·.entryId = e.id) = cs :=
    List.filter_eq_self.mpr fun c hc => by simpa using (h.consumptions c hc).1
  simp only [Db.consumptionsOf, Db.recorded, List.filter_append, hold, hnew, List.nil_append]

theorem mirrored_entryId {i : Uuid} {qs : List Posting} :
    ∀ p ∈ qs.map (Posting.mirrored i), p.entryId = i := by
  intro p hp
  obtain ⟨q, _, rfl⟩ := List.mem_map.mp hp
  rfl

theorem reversed_postingsOf_old (h : Reversible db env e) {f : JournalEntry}
    (hf : f ∈ db.journalEntries) : (db.reversed env e).postingsOf f.id = db.postingsOf f.id := by
  have hne : env.entryId ≠ f.id := Ne.symm (h.insertable.1 f hf)
  unfold Db.reversed
  rw [Db.postingsOf, postingsOf_append mirrored_entryId, if_neg hne, List.append_nil]

theorem reversed_postingsOf_new (hw : WellFormed db) (h : Reversible db env e) :
    (db.reversed env e).postingsOf env.entryId =
      (db.postingsOf e.id).map (Posting.mirrored env.entryId) := by
  unfold Db.reversed
  rw [Db.postingsOf, postingsOf_append mirrored_entryId, if_pos rfl,
    postingsOf_fresh hw (i := env.entryId) h.insertable.1, List.nil_append]

theorem JournalInv.record (hw : WellFormed db) (hj : JournalInv db)
    (h : Recordable db e ps ls cs) : JournalInv (db.recorded e ps ls cs) where
  sound f hf := by
    rcases List.mem_append.mp hf with hf | hf
    · rw [recorded_postingsOf_old h hf]
      exact hj.sound f hf
    · rw [List.mem_singleton.mp hf, recorded_postingsOf_new hw h]
      exact ⟨h.two, h.nonzero, h.balanced⟩
  mirror r hr i hi := by
    rcases List.mem_append.mp hr with hr | hr
    · obtain ⟨hvoid, ⟨f, hf, rfl, hfv⟩, hps⟩ := hj.mirror r hr i hi
      refine ⟨hvoid, ⟨f, List.mem_append_left _ hf, rfl, hfv⟩, ?_⟩
      rw [recorded_postingsOf_old h hr, recorded_postingsOf_old h hf, hps]
    · rw [List.mem_singleton.mp hr, h.original] at hi
      cases hi
  once := by simpa [Db.recorded, h.original] using hj.once

theorem voided_of_void {f : JournalEntry} (h : f.status = .void) (i : Uuid) : f.voided i = f := by
  simp [JournalEntry.voided, h]

/-- A posted entry has no reversal yet. -/
theorem not_reversed_of_posted (hw : WellFormed db) (hj : JournalInv db)
    (h : Reversible db env e) : e.id ∉ db.journalEntries.filterMap (·.reversalOf) := by
  intro hm
  obtain ⟨r, hr, hi⟩ := List.mem_filterMap.mp hm
  obtain ⟨-, ⟨f, hf, hid, hvoid⟩, -⟩ := hj.mirror r hr e.id hi
  have hfe : f = e := List.inj_on_of_nodup_map hw.entryIds hf (List.mem_of_find?_eq_some h.entry) hid
  rw [hfe, h.posted] at hvoid
  cases hvoid

theorem JournalInv.reverse (hw : WellFormed db) (hj : JournalInv db) (h : Reversible db env e) :
    JournalInv (db.reversed env e) where
  sound f hf := by
    rcases List.mem_append.mp hf with hf | hf
    · obtain ⟨g, hg, rfl⟩ := List.mem_map.mp hf
      rw [voided_id, reversed_postingsOf_old h hg]
      exact hj.sound g hg
    · rw [List.mem_singleton.mp hf]
      exact reversed_postingsOf_new hw h ▸
        (hj.sound e (List.mem_of_find?_eq_some h.entry)).mirrored env.entryId
  mirror r hr i hi := by
    have he := List.mem_of_find?_eq_some h.entry
    rcases List.mem_append.mp hr with hr | hr
    · obtain ⟨g, hg, rfl⟩ := List.mem_map.mp hr
      rw [voided_reversalOf] at hi
      obtain ⟨hvoid, ⟨f, hf, rfl, hfv⟩, hps⟩ := hj.mirror g hg i hi
      rw [voided_of_void hvoid]
      refine ⟨hvoid, ⟨f, List.mem_append_left _ ?_, rfl, hfv⟩, ?_⟩
      · exact voided_of_void hfv e.id ▸ List.mem_map_of_mem hf
      · rw [reversed_postingsOf_old h hg, reversed_postingsOf_old h hf, hps]
    · obtain rfl := List.mem_singleton.mp hr
      cases hi
      refine ⟨rfl, ⟨e.voided e.id, List.mem_append_left _ (List.mem_map_of_mem he),
        voided_id _ _, ?_⟩, ?_⟩
      · simp [JournalEntry.voided, h.posted, JournalEntry.setVoid]
      · exact (reversed_postingsOf_new hw h).trans (by rw [reversed_postingsOf_old h he]; rfl)
  once := by
    have hold : (db.journalEntries.map (JournalEntry.voided e.id)).filterMap (·.reversalOf) =
        db.journalEntries.filterMap (·.reversalOf) := by
      simp [List.filterMap_map]
    have hnew : (db.reversed env e).journalEntries.filterMap (·.reversalOf) =
        db.journalEntries.filterMap (·.reversalOf) ++ [e.id] := by
      simp [Db.reversed, hold, JournalEntry.reversalRow]
    rw [hnew]
    refine List.nodup_append.mpr ⟨hj.once, by simp, ?_⟩
    rintro i hi j hj' rfl
    exact not_reversed_of_posted hw hj h (List.mem_singleton.mp hj' ▸ hi)

theorem JournalInv.step {db' : Db} (hi : LedgerInv db) (hj : JournalInv db)
    (h : LedgerStep db db') : JournalInv db' := by
  cases h with
  | provision accounts => exact ⟨hj.sound, hj.mirror, hj.once⟩
  | record h => exact hj.record hi.toWellFormed h
  | reverse h => exact hj.reverse hi.toWellFormed h

end Steps

/-! ## The trial balance -/

/-- The base values of all posted entries. -/
def Db.trialBalance (db : Db) : Decimal := ((db.livePostings none).map Posting.baseValue).sum

def Db.postedEntries (db : Db) : List JournalEntry :=
  db.journalEntries.filter (·.status = .posted)

theorem posted_iff_mem {db : Db} {i : Uuid} : db.Posted i ↔ i ∈ db.postedEntries.map (·.id) := by
  simp only [Db.Posted, Db.postedEntries, List.mem_map, List.mem_filter, decide_eq_true_eq]
  constructor
  · rintro ⟨e, he, hid, hs⟩
    exact ⟨e, ⟨he, hs⟩, hid⟩
  · rintro ⟨e, ⟨he, hs⟩, hid⟩
    exact ⟨e, he, hid, hs⟩

theorem postedEntries_nodup {db : Db} (hw : WellFormed db) :
    (db.postedEntries.map (·.id)).Nodup :=
  hw.entryIds.sublist (List.filter_sublist.map _)

/-- A sum over the live postings, entry by entry. -/
theorem sum_livePostings {db : Db} (hw : WellFormed db) (f : Posting → Decimal) :
    ((db.livePostings none).map f).sum =
      (db.postedEntries.map fun e => ((db.postingsOf e.id).map f).sum).sum := by
  have hlive : db.livePostings none =
      db.postings.filter fun p => decide (p.entryId ∈ db.postedEntries.map (·.id)) := by
    refine List.filter_congr fun p _ => decide_eq_decide.mpr ?_
    rw [← posted_iff_mem]
    simp [Db.Posted, InTenantScope]
  rw [hlive, sum_group (postedEntries_nodup hw), List.map_map]
  rfl

theorem trialBalance_within {db : Db} (hw : WellFormed db) (hj : JournalInv db) :
    db.trialBalance.abs ≤ db.postedEntries.length • TOLERANCE := by
  have hterm : ∀ m ∈ db.postedEntries.map fun e =>
      ((db.postingsOf e.id).map Posting.baseValue).sum, -TOLERANCE ≤ m ∧ m ≤ TOLERANCE := by
    intro m hm
    obtain ⟨e, he, rfl⟩ := List.mem_map.mp hm
    exact Decimal.abs_le_iff.mp (hj.sound e (List.mem_of_mem_filter he)).balanced
  rw [Db.trialBalance, sum_livePostings hw, Decimal.abs_le_iff]
  simpa using sum_within hterm

/-! ## Balances -/

/-- The postings of the entries that are selected, after one of them is recorded. -/
theorem filter_recorded {db : Db} {e : JournalEntry} {ps : List Posting} {ls : List Lot}
    {cs : List LotConsumption} (hw : WellFormed db) (h : Recordable db e ps ls cs)
    {sel : JournalEntry → Prop} [DecidablePred sel] (hs : sel e) :
    ((db.recorded e ps ls cs).postings.filter fun p =>
        ∃ f ∈ (db.recorded e ps ls cs).journalEntries, f.id = p.entryId ∧ sel f) =
      (db.postings.filter fun p => ∃ f ∈ db.journalEntries, f.id = p.entryId ∧ sel f) ++ ps := by
  have hold : ∀ p ∈ db.postings, (∃ f ∈ db.journalEntries ++ [e], f.id = p.entryId ∧ sel f) ↔
      ∃ f ∈ db.journalEntries, f.id = p.entryId ∧ sel f := by
    intro p hp
    obtain ⟨f, hf, hid⟩ := hw.postingEntry p hp
    have hne : e.id ≠ p.entryId := fun he => h.insertable.1 f hf (hid.trans he.symm)
    simp [List.mem_append, or_and_right, exists_or, hne]
  have hnew : ∀ p ∈ ps, ∃ f ∈ db.journalEntries ++ [e], f.id = p.entryId ∧ sel f := fun p hp =>
    ⟨e, by simp, (h.postings p hp).symm, hs⟩
  unfold Db.recorded
  rw [List.filter_append]
  congr 1
  · exact List.filter_congr fun p hp => decide_eq_decide.mpr (hold p hp)
  · exact List.filter_eq_self.mpr fun p hp => decide_eq_true (hnew p hp)

/-- A recorded entry adds its lines to what its tenant sees. -/
theorem livePostings_recorded {db : Db} {e : JournalEntry} {ps : List Posting} {ls : List Lot}
    {cs : List LotConsumption} (hw : WellFormed db) (h : Recordable db e ps ls cs)
    {scope : Option Uuid} (hs : InTenantScope scope e) :
    (db.recorded e ps ls cs).livePostings scope = db.livePostings scope ++ ps :=
  @filter_recorded db e ps ls cs hw h (fun f => f.status = .posted ∧ InTenantScope scope f)
    (fun _ => inferInstance) ⟨h.posted, hs⟩

section Balances
variable {env : Env} {input : PostEntryInput} {userId : Option Uuid} {db db' : Db}

theorem Posted.livePostings (hi : LedgerInv db) (hp : Posted env input userId db db') :
    db'.livePostings userId =
      db.livePostings userId ++ input.postings.map (DraftPosting.row env.entryId) := by
  rw [hp.written.result]
  exact livePostings_recorded hi.toWellFormed (hp.recordable hi.lotIds) (.inr (.inl rfl))

/-- The book value of an account moves by the lines on it. -/
theorem Posted.bookBalance (hi : LedgerInv db) (hp : Posted env input userId db db') (x : Uuid) :
    db'.bookBalance userId x = db.bookBalance userId x +
      ((input.postings.filter (·.accountId = x)).map (·.baseValue)).sum := by
  rw [Db.bookBalance, hp.livePostings hi, List.filter_append, List.map_append, List.sum_append,
    List.filter_map, List.map_map]
  rfl

theorem Posted.nativeBalance (hi : LedgerInv db) (hp : Posted env input userId db db')
    (x a : Uuid) : db'.nativeBalance userId x a =
      db.nativeBalance userId x a + nativeChange input.postings x a := by
  rw [Db.nativeBalance, hp.livePostings hi, List.filter_append, List.map_append, List.sum_append,
    List.filter_map, List.map_map]
  rfl

end Balances

/-! ## The laws of the journal -/

/-- What the journal guarantees its readers. -/
structure JournalLaws (db : Db) : Prop where
  sound : ∀ e ∈ db.journalEntries, SoundPostings (db.postingsOf e.id)
  mirrored : ∀ r ∈ db.journalEntries, ∀ i, r.reversalOf = some i →
    db.postingsOf r.id = (db.postingsOf i).map (Posting.mirrored r.id)
  one : ∀ i, (db.journalEntries.filter (·.reversalOf = some i)).length ≤ 1
  final : ∀ r ∈ db.journalEntries, r.reversalOf ≠ none →
    ∀ env, (reverseEntry env r.id).Refused db
  trialBalance : db.trialBalance.abs ≤ db.postedEntries.length • TOLERANCE

theorem length_filter_le_one {db : Db} (hj : JournalInv db) (i : Uuid) :
    (db.journalEntries.filter (·.reversalOf = some i)).length ≤ 1 := by
  have hcount : (db.journalEntries.filter (·.reversalOf = some i)).length =
      (db.journalEntries.filterMap (·.reversalOf)).count i := by
    induction db.journalEntries with
    | nil => rfl
    | cons e es ih =>
      cases h : e.reversalOf with
      | none => simpa [h] using ih
      | some j =>
        by_cases hij : j = i
        · simpa [h, hij] using ih
        · simpa [h, hij] using ih
  rw [hcount]
  exact List.nodup_iff_count_le_one.mp hj.once i

theorem reversal_refused {db : Db} (hi : LedgerInv db) (hj : JournalInv db) {r : JournalEntry}
    (hr : r ∈ db.journalEntries) (hrev : r.reversalOf ≠ none) (env : Env) :
    (reverseEntry env r.id).Refused db := by
  obtain ⟨i, hi'⟩ := Option.ne_none_iff_exists'.mp hrev
  rcases (reverseEntry env r.id).ok_or_refused db with ⟨a, t, h⟩ | h
  · obtain ⟨e, hid, he, -, -⟩ := (reverseEntry_ok hi.lotIds).mp h
    have her : e = r :=
      List.inj_on_of_nodup_map hi.entryIds (List.mem_of_find?_eq_some he.entry) hr hid
    have hvoid := (hj.mirror r hr i hi').1
    rw [← her, he.posted] at hvoid
    cases hvoid
  · exact h

/-- Whatever is posted and reversed, in any order, the journal keeps its laws. -/
theorem runOps_journalLaws {db : Db} (h : db.EmptyLedger) (ops : List LedgerOp) :
    JournalLaws (runOps ops db) := by
  obtain ⟨hi, hj⟩ := runOps_keeps (fun _ _ hi hj hs => JournalInv.step hi hj hs) ops h.inv
    h.journalInv
  exact ⟨hj.sound, fun r hr i hi => (hj.mirror r hr i hi).2.2, length_filter_le_one hj,
    fun r hr hrev env => reversal_refused hi hj hr hrev env,
    trialBalance_within hi.toWellFormed hj⟩

theorem demo_journalLaws : JournalLaws (runOps
    [.post { entryId := 1 } (demoBuy 2 100), .reverse { entryId := 2 } 1,
      .reverse { entryId := 3 } 2] demo) :=
  runOps_journalLaws demo_empty _

end Pwos

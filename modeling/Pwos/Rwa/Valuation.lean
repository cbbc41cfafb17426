import Mathlib.Data.Finset.Max
import Pwos.Lib.Runs
import Pwos.Rwa.UsdRate

/-!
# Valuations of a property

`recordRealEstateValuation` of `features/rwa/realEstate/service.ts`. A valuation appends an
immutable snapshot and then points the row of the property at it, whatever its day. The
plausibility check of the prices is a parameter.

## Main statements

* `recordRealEstateValuation_ok` — what an accepted call writes.
* `Db.showsLatest_iff` — after it the row shows the latest snapshot, or an older one.
* `shows_latest_throughout` — when the row shows the latest snapshot along a whole run.
-/

namespace Pwos

structure RecordRealEstateValuationInput where
  propertyId : Uuid
  userId : Option Uuid := none
  /-- `none` if it is blank. -/
  valuationDate : Option IsoDate
  valuationDatePersian : Option String := none
  currentValueToman : Decimal
  valuationFxRate : Option Decimal := none
  note : Option String := none

structure ValuationResult where
  id : Uuid
  currentValueToman : Decimal
  currentValueUsd : Decimal
  valuationFxRate : Decimal
  deriving DecidableEq, Repr

/-- The unique index on the property and the day, and the property the snapshot refers to. -/
def Db.ValuationInsertable (db : Db) (s : RealEstateValuationSnapshot) : Prop :=
  (∀ t ∈ db.realEstateValuationSnapshots,
    ¬ (t.propertyId = s.propertyId ∧ t.snapshotDate = s.snapshotDate)) ∧
  ∃ p ∈ db.realEstateProperties, p.id = s.propertyId

instance (db : Db) (s : RealEstateValuationSnapshot) : Decidable (db.ValuationInsertable s) :=
  inferInstanceAs (Decidable ((∀ t ∈ db.realEstateValuationSnapshots,
    ¬ (t.propertyId = s.propertyId ∧ t.snapshotDate = s.snapshotDate)) ∧
    ∃ p ∈ db.realEstateProperties, p.id = s.propertyId))

/-- A second valuation of one day is refused. -/
def insertValuationSnapshot (s : RealEstateValuationSnapshot) : Sql Unit := do
  let existing ← Tx.read fun db => db.realEstateValuationSnapshots.find? fun t =>
    t.propertyId = s.propertyId ∧ t.snapshotDate = s.snapshotDate
  Tx.require (existing = none) (.failure
    "برای این تاریخ ارزش‌گذاری ثبت شده است. اسنپ‌شات‌های قبلی تغییرناپذیرند؛ برای ارزش جدید یک تاریخ جدید ثبت کنید.")
  Tx.insert (fun _ => [.valuation s.propertyId s.snapshotDate]) (·.ValuationInsertable s)
    (fun _ => [.insertValuation s]) (.constraintViolation "real_estate_valuation_snapshots")

/-- The price that the net worth is worked out with. -/
def recordCurrentPrice (assetId : Uuid) (currentValueUsd : Decimal) (valuationDate : IsoDate) :
    Sql Unit :=
  Tx.when (0 < currentValueUsd)
    (Tx.write (fun _ => [.price assetId valuationDate])
      fun _ => [.upsertPrice ⟨assetId, valuationDate, currentValueUsd⟩])

section Record
variable (history : IsoDate → Option DatedRate)
  /- `blockingMessage(validatePropertyPrices(…))`: the user, the property, the value and its
  rate, beside what the tables say of the place. -/
  (blockedPrice : Db → Option Uuid → RealEstateProperty → Decimal → Decimal → Option String)
  (env : Env) (input : RecordRealEstateValuationInput)

/-- The caller's property. Without an identity there is nothing to scope by. -/
def ownProperty : Sql RealEstateProperty := do
  let prop ← Tx.read fun db => db.realEstateProperties.find? fun p =>
    p.id = input.propertyId ∧ (input.userId = none ∨ p.userId = input.userId)
  match prop with
  | some prop => pure prop
  | none => .fail (.failure "ملک یافت نشد یا متعلق به شما نیست.")

/-- The rate the caller gives, if any, else that of the day. -/
def valuationRate (valuationDate : IsoDate) : Sql UsdRateResolution :=
  match input.valuationFxRate.filter (0 < ·) with
  | some rate => pure ⟨rate, valuationDate, .manual, true⟩
  | none => resolveUsdRateForDateToFreeze history env valuationDate input.userId

/-- A property of the catalogue is compared with what it cost and with its surroundings. -/
def checkPrice (prop : RealEstateProperty) (current rate : Decimal) : Sql Unit :=
  Tx.when (prop.cityId.isSome ∧ prop.neighborhoodId.isSome ∧ prop.propertyTypeId.isSome ∧
      prop.sizeSqm.isSome) do
    match ← Tx.read fun db => blockedPrice db input.userId prop current rate with
    | some blocked => .fail (.failure blocked)
    | none => pure ()

def RecordRealEstateValuationInput.snapshot (prop : RealEstateProperty) (valuationDate : IsoDate)
    (valuationFx : UsdRateResolution) : RealEstateValuationSnapshot :=
  let current := input.currentValueToman.toFixed 0
  { propertyId := prop.id, assetId := prop.assetId, userId := input.userId
    snapshotDate := valuationDate, snapshotDatePersian := input.valuationDatePersian
    currentValueToman := current, usdRate := valuationFx.rate
    usdRateSource := valuationFx.source, usdRateDate := valuationFx.effectiveDate
    currentValueUsd := tomanToUsd current valuationFx.rate, note := input.note }

/-- What the transaction writes. -/
def appendValuation (prop : RealEstateProperty) (snapshot : RealEstateValuationSnapshot) :
    Sql ValuationResult := do
  insertValuationSnapshot snapshot
  Tx.write (fun _ => [.property prop.id]) (fun _ => [.setValuation prop.id snapshot])
  recordCurrentPrice prop.assetId snapshot.currentValueUsd snapshot.snapshotDate
  pure ⟨prop.id, snapshot.currentValueToman, snapshot.currentValueUsd, snapshot.usdRate⟩

def recordRealEstateValuation : Sql ValuationResult := do
  let prop ← ownProperty input
  match input.valuationDate with
  | none => .fail (.failure "تاریخ ارزش‌گذاری (شمسی) الزامی است.")
  | some valuationDate =>
    Tx.require (0 < input.currentValueToman)
      (.failure "ارزش فعلی باید بزرگ‌تر از صفر باشد.")
    let valuationFx ← valuationRate history env input valuationDate
    Tx.require (0 < valuationFx.rate) (.failure "نرخ دلار تاریخ ارزش‌گذاری در دسترس نیست.")
    checkPrice blockedPrice input prop (input.currentValueToman.toFixed 0) valuationFx.rate
    appendValuation prop (input.snapshot prop valuationDate valuationFx)

/-! ## What an accepted call writes -/

theorem readOnly_checkPrice (prop : RealEstateProperty) (current rate : Decimal) :
    (checkPrice blockedPrice input prop current rate).ReadOnly := by
  unfold checkPrice Tx.when
  split
  · refine (Tx.readOnly_read _).bind fun blocked => ?_
    split <;> trivial
  · exact Tx.readOnly_done _

theorem readOnly_valuationRate (valuationDate : IsoDate) :
    (valuationRate history env input valuationDate).ReadOnly := by
  unfold valuationRate
  split
  · exact Tx.readOnly_done _
  · exact readOnly_resolveUsdRateForDateToFreeze history env _ _

variable {history blockedPrice env input} {db db' : Db} {r : ValuationResult}

theorem ownProperty_ok {prop : RealEstateProperty} {t : Db}
    (h : (ownProperty input).run db = .ok (prop, t)) :
    t = db ∧ prop ∈ db.realEstateProperties ∧ prop.id = input.propertyId := by
  unfold ownProperty at h
  rw [Tx.run_read_bind] at h
  split at h
  · rename_i found
    cases h
    exact ⟨rfl, List.mem_of_find?_eq_some found, (of_decide_eq_true (List.find?_some found :)).1⟩
  · cases h

/-- The row that the transaction leaves behind. -/
def Db.withValuation (db : Db) (s : RealEstateValuationSnapshot) (prices : List Price) : Db :=
  { db with
    realEstateValuationSnapshots := db.realEstateValuationSnapshots ++ [s]
    realEstateProperties := db.realEstateProperties.map fun p =>
      if p.id = s.propertyId then p.valued s else p
    prices }

theorem appendValuation_ok {prop : RealEstateProperty} {s : RealEstateValuationSnapshot}
    (hs : s.propertyId = prop.id) (h : (appendValuation prop s).run db = .ok (r, db')) :
    db.ValuationInsertable s ∧ ∃ prices, db' = db.withValuation s prices := by
  simp only [appendValuation, insertValuationSnapshot, Tx.bind_assoc, Tx.run_read_bind,
    Tx.run_require_bind, Tx.run_insert_bind, Tx.run_write_bind] at h
  split at h
  case isFalse => cases h
  split at h
  case isFalse => cases h
  rename_i hinsert
  obtain ⟨_, u, hprice, hdone⟩ := Tx.run_bind_ok.mp h
  cases hdone
  refine ⟨hinsert, db'.prices, ?_⟩
  unfold recordCurrentPrice Tx.when at hprice
  rw [Db.withValuation, hs]
  split at hprice <;> cases hprice <;> rfl

theorem recordRealEstateValuation_ok
    (h : (recordRealEstateValuation history blockedPrice env input).run db = .ok (r, db')) :
    ∃ s prices, s.propertyId = input.propertyId ∧ input.valuationDate = some s.snapshotDate ∧
      db.ValuationInsertable s ∧ db' = db.withValuation s prices := by
  obtain ⟨prop, t, hprop, hdated⟩ := Tx.run_bind_ok.mp h
  obtain ⟨rfl, -, hid⟩ := ownProperty_ok hprop
  split at hdated
  case h_1 => cases hdated
  rename_i valuationDate hdate
  rw [Tx.run_require_bind] at hdated
  split at hdated
  case isFalse => cases hdated
  obtain ⟨fx, hrated⟩ := (readOnly_valuationRate history env input valuationDate).run_bind_ok hdated
  rw [Tx.run_require_bind] at hrated
  split at hrated
  case isFalse => cases hrated
  obtain ⟨_, hchecked⟩ := (readOnly_checkPrice blockedPrice input prop _ _).run_bind_ok hrated
  obtain ⟨hinsert, prices, hdb⟩ := appendValuation_ok rfl hchecked
  exact ⟨_, prices, hid, hdate, hinsert, hdb⟩

end Record

/-! ## The latest snapshot -/

/-- The value, the rate and the day of the snapshot are those of the row. -/
structure RealEstateProperty.Shows (p : RealEstateProperty) (s : RealEstateValuationSnapshot) :
    Prop where
  currentValueToman : p.currentValueToman = some s.currentValueToman
  valuationFxRate : p.valuationFxRate = some s.usdRate
  currentValueUsd : p.currentValueUsd = some s.currentValueUsd
  valuationDate : p.valuationDate = some s.snapshotDate

namespace Db
variable (db : Db) (propertyId : Uuid)

def valuationsOf : List RealEstateValuationSnapshot :=
  db.realEstateValuationSnapshots.filter (·.propertyId = propertyId)

/-- The property is shown with its snapshot of the latest day. -/
def ShowsLatest : Prop :=
  ∀ p ∈ db.realEstateProperties, p.id = propertyId → ∀ s ∈ db.valuationsOf propertyId,
    (∀ t ∈ db.valuationsOf propertyId, t.snapshotDate ≤ s.snapshotDate) → p.Shows s

variable {db propertyId} {s t : RealEstateValuationSnapshot} {prices : List Price}

theorem mem_valuationsOf : s ∈ db.valuationsOf propertyId ↔
    s ∈ db.realEstateValuationSnapshots ∧ s.propertyId = propertyId := by
  simp [valuationsOf]

theorem valuationsOf_withValuation : (db.withValuation s prices).valuationsOf propertyId =
    db.valuationsOf propertyId ++ if s.propertyId = propertyId then [s] else [] := by
  simp only [valuationsOf, withValuation, List.filter_append]
  split <;> simp_all

/-- A valuation of another property does not touch the row. -/
theorem mem_withValuation_other (h : s.propertyId ≠ propertyId) {p : RealEstateProperty}
    (hp : p.id = propertyId) :
    p ∈ (db.withValuation s prices).realEstateProperties ↔ p ∈ db.realEstateProperties := by
  constructor
  · intro hmem
    obtain ⟨q, hq, rfl⟩ := List.mem_map.mp hmem
    split at hp
    · rename_i hid
      exact absurd (hid.symm.trans hp) h
    · rwa [if_neg ‹_›]
  · exact fun hmem => List.mem_map.mpr ⟨p, hmem, if_neg fun hid => h (hid.symm.trans hp)⟩

theorem showsLatest_withValuation_other (h : s.propertyId ≠ propertyId) :
    (db.withValuation s prices).ShowsLatest propertyId ↔ db.ShowsLatest propertyId := by
  unfold ShowsLatest
  rw [valuationsOf_withValuation, if_neg h, List.append_nil]
  exact forall_congr' fun p =>
    ⟨fun hall hp hid => hall ((mem_withValuation_other h hid).mpr hp) hid,
      fun hall hp hid => hall ((mem_withValuation_other h hid).mp hp) hid⟩

/-- Some snapshot is the latest. -/
theorem exists_latest (h : t ∈ db.valuationsOf propertyId) :
    ∃ s ∈ db.valuationsOf propertyId,
      ∀ u ∈ db.valuationsOf propertyId, u.snapshotDate ≤ s.snapshotDate := by
  obtain ⟨s, hs, hmax⟩ := (db.valuationsOf propertyId).toFinset.exists_max_image
    (·.snapshotDate) ⟨t, List.mem_toFinset.mpr h⟩
  exact ⟨s, List.mem_toFinset.mp hs, fun u hu => hmax u (List.mem_toFinset.mpr hu)⟩

/-- After a valuation the row shows the latest snapshot if and only if the valuation is later
than all those before it. -/
theorem showsLatest_withValuation_self (h : db.ValuationInsertable s) :
    (db.withValuation s prices).ShowsLatest s.propertyId ↔
      ∀ t ∈ db.valuationsOf s.propertyId, t.snapshotDate < s.snapshotDate := by
  obtain ⟨hdays, p, hp, hid⟩ := h
  have hrow : p.valued s ∈ (db.withValuation s prices).realEstateProperties :=
    List.mem_map.mpr ⟨p, hp, if_pos hid⟩
  have hall : ∀ t, t ∈ (db.withValuation s prices).valuationsOf s.propertyId ↔
      t ∈ db.valuationsOf s.propertyId ∨ t = s := by
    simp [valuationsOf_withValuation]
  constructor
  · intro hshows t ht
    obtain ⟨u, hu, hmax⟩ := exists_latest ((hall t).mpr (.inl ht))
    have hdate : s.snapshotDate = u.snapshotDate :=
      Option.some.inj (hshows _ hrow hid u hu hmax).valuationDate
    have hle : t.snapshotDate ≤ s.snapshotDate := hdate ▸ hmax t ((hall t).mpr (.inl ht))
    have hne : t.snapshotDate ≠ s.snapshotDate := fun heq =>
      hdays t (mem_valuationsOf.mp ht).1 ⟨(mem_valuationsOf.mp ht).2, heq⟩
    exact lt_of_le_of_ne hle hne
  · intro hlater q hq hqid u hu hmax
    obtain rfl : u = s := by
      rcases (hall u).mp hu with hold | rfl
      · exact absurd (hmax s ((hall s).mpr (.inr rfl))) (not_le.mpr (hlater u hold))
      · rfl
    obtain ⟨q, -, rfl⟩ := List.mem_map.mp hq
    split
    · exact ⟨rfl, rfl, rfl, rfl⟩
    · rename_i hother
      rw [if_neg hother] at hqid
      exact absurd hqid hother

end Db

/-! ## Runs of valuations -/

structure ValuationCall where
  env : Env
  input : RecordRealEstateValuationInput

section Runs
variable (history : IsoDate → Option DatedRate)
  (blockedPrice : Db → Option Uuid → RealEstateProperty → Decimal → Decimal → Option String)

def ValuationCall.program (c : ValuationCall) : Sql ValuationResult :=
  recordRealEstateValuation history blockedPrice c.env c.input

def ValuationCall.exec (c : ValuationCall) (db : Db) : Db :=
  (c.program history blockedPrice).exec db

def ValuationCall.Accepted (c : ValuationCall) (db : Db) : Prop :=
  ¬ (c.program history blockedPrice).Refused db

/-- The call is for another property, or for a later day than every snapshot stored. -/
def ValuationCall.Forward (propertyId : Uuid) (c : ValuationCall) (db : Db) : Prop :=
  c.Accepted history blockedPrice db → c.input.propertyId = propertyId →
    ∀ t ∈ db.valuationsOf propertyId, ∀ day ∈ c.input.valuationDate, t.snapshotDate < day

theorem ValuationCall.exec_cases (c : ValuationCall) (db : Db) :
    (¬ c.Accepted history blockedPrice db ∧ c.exec history blockedPrice db = db) ∨
    c.Accepted history blockedPrice db ∧ ∃ s prices, s.propertyId = c.input.propertyId ∧
      c.input.valuationDate = some s.snapshotDate ∧ db.ValuationInsertable s ∧
      c.exec history blockedPrice db = db.withValuation s prices := by
  rcases (c.program history blockedPrice).ok_or_refused db with ⟨r, db', hrun⟩ | hrefused
  · obtain ⟨s, prices, hid, hdate, hinsert, hdb⟩ := recordRealEstateValuation_ok hrun
    have haccepted : c.Accepted history blockedPrice db := fun ⟨e, he⟩ => by
      rw [hrun] at he
      cases he
    exact .inr ⟨haccepted, s, prices, hid, hdate, hinsert, (Tx.exec_of_ok hrun).trans hdb⟩
  · exact .inl ⟨fun h => h hrefused, hrefused.exec⟩

variable {history blockedPrice} {propertyId : Uuid}

theorem ValuationCall.showsLatest_exec (c : ValuationCall) (db : Db)
    (h : db.ShowsLatest propertyId) :
    (c.exec history blockedPrice db).ShowsLatest propertyId ↔
      c.Forward history blockedPrice propertyId db := by
  rcases c.exec_cases history blockedPrice db with
    ⟨hrefused, hsame⟩ | ⟨haccepted, s, prices, hid, hdate, hinsert, hdb⟩
  · rw [hsame]
    exact ⟨fun _ haccepted => absurd haccepted hrefused, fun _ => h⟩
  · rw [hdb]
    unfold Forward
    rw [hdate, ← hid]
    by_cases hown : s.propertyId = propertyId
    · subst hown
      rw [Db.showsLatest_withValuation_self hinsert]
      simp [haccepted]
    · rw [Db.showsLatest_withValuation_other hown]
      exact ⟨fun _ _ heq => absurd heq hown, fun _ => h⟩

theorem ValuationCall.prefix_exec (c : ValuationCall) (db : Db) :
    db.realEstateValuationSnapshots <+:
      (c.exec history blockedPrice db).realEstateValuationSnapshots := by
  rcases c.exec_cases history blockedPrice db with
    ⟨-, hsame⟩ | ⟨-, s, prices, -, -, -, hdb⟩
  · rw [hsame]
  · rw [hdb]
    exact List.prefix_append _ _

/-- Along a run of valuations the row of a property shows its latest snapshot if and only if
it did so at first and no accepted call is for a day before one that is stored. Snapshots are
only ever added. -/
theorem shows_latest_throughout (calls : List ValuationCall) (db : Db) :
    ((∀ made, made <+: calls →
        (runAll (ValuationCall.exec history blockedPrice) made db).ShowsLatest propertyId) ↔
      db.ShowsLatest propertyId ∧ EveryCall (ValuationCall.exec history blockedPrice)
        (ValuationCall.Forward history blockedPrice propertyId) calls db) ∧
    db.realEstateValuationSnapshots <+: (runAll (ValuationCall.exec history blockedPrice) calls
      db).realEstateValuationSnapshots := by
  refine ⟨throughout_iff ValuationCall.showsLatest_exec calls, ?_⟩
  exact runAll_keeps (I := fun t => db.realEstateValuationSnapshots <+:
    t.realEstateValuationSnapshots) (fun c t ht => ht.trans (c.prefix_exec t)) calls
    List.prefix_rfl

end Runs

/-- A property without valuations. -/
def demoProperty : Db := { realEstateProperties := [{ id := 1, userId := some 1 }] }

/-- A valuation of the property at 100000 Toman a dollar. -/
def demoValuation (day : IsoDate) (toman : Int) : ValuationCall :=
  { env := { entryId := 0 }
    input := { propertyId := 1, userId := some 1, valuationDate := some day
               currentValueToman := .ofInt toman, valuationFxRate := some (.ofInt 100000) } }

/-- The value of May is entered after that of June, and the row goes back to May. -/
theorem valuation_moves_back :
    let exec := ValuationCall.exec (fun _ => none) (fun _ _ _ _ _ => none)
    let calls := [demoValuation 20260601 2000000, demoValuation 20260501 1000000]
    demoProperty.ShowsLatest 1 ∧
    EveryCall exec (ValuationCall.Accepted (fun _ => none) (fun _ _ _ _ _ => none)) calls
      demoProperty ∧
    ((runAll exec calls demoProperty).valuationsOf 1).map (·.snapshotDate) =
      [20260601, 20260501] ∧
    (runAll exec calls demoProperty).realEstateProperties.map (·.valuationDate) =
      [some 20260501] ∧
    ¬ (runAll exec calls demoProperty).ShowsLatest 1 := by
  intro exec calls
  refine ⟨?_, ⟨?_, ?_, trivial⟩, by decide, by decide, fun h => ?_⟩
  · exact fun _ _ _ s hs => absurd hs List.not_mem_nil
  · unfold ValuationCall.Accepted
    decide
  · unfold ValuationCall.Accepted
    decide
  · have hshows := h _ (List.mem_singleton.mpr rfl) rfl _ (List.mem_cons_self ..) (by decide)
    exact absurd hshows.valuationDate (by decide)

end Pwos

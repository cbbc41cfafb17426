import Pwos.Rwa.ClosedPosition

/-!
# The first valuation of a vehicle

`createUserVehicle` of `features/rwa/vehicle/service.ts` as a whole: the class of the registries is
made, a transaction registers the vehicle and pays for it, and then
`recordVehicleValuationSnapshot` of `features/rwa/vehicle/valuation.ts` runs on its own. When it
refuses, the vehicle stays registered and paid for.
-/

namespace Pwos

/-! ## Valuations of vehicles -/

/-- A row of `vehicle_valuation_snapshots`. Without a vehicle it is one of the market. -/
structure VehicleValuationSnapshot where
  vehicleCatalogId : Uuid
  userVehicleId : Option Uuid
  snapshotDate : IsoDate
  currentValueToman : Decimal
  usdRate : Decimal
  currentValueUsd : Decimal
  createdByUserId : Option Uuid
  deriving DecidableEq, Repr

/-- The tables of the ledger, whether the class of the registries is there, the day each vehicle was
bought on, and the valuations. -/
structure VehicleStore where
  db : Db
  hasRwaClass : Bool
  ownershipDates : List (Uuid × IsoDate)
  valuations : List VehicleValuationSnapshot

/-- Nothing is no day. -/
def VehicleStore.ownershipDate (s : VehicleStore) (vehicleId : Uuid) : IsoDate :=
  (s.ownershipDates.find? (·.1 = vehicleId)).elim 0 (·.2)

structure RecordVehicleValuationInput where
  catalogId : Option Uuid
  userVehicleId : Option Uuid := none
  snapshotDate : Option IsoDate
  currentValueToman : Decimal
  usdRate : Option Decimal := none
  createdByUserId : Option Uuid := none

/-- A refusal with a text of its own. -/
def complainUnless (c : Prop) [Decidable c] (text : String) : Except AppError Unit :=
  if c then .ok () else .error (.failure text)

def complainIf (blocked : Option String) : Except AppError Unit :=
  match blocked with
  | some text => .error (.failure text)
  | none => .ok ()

/-- A valuation of the same day: of the vehicle, or of the model on the market. -/
def VehicleValuationSnapshot.Takes (v : VehicleValuationSnapshot) (catalogId : Uuid)
    (userVehicleId : Option Uuid) (date : IsoDate) : Prop :=
  v.userVehicleId = userVehicleId ∧ v.snapshotDate = date ∧
    (userVehicleId = none → v.vehicleCatalogId = catalogId)

instance (v : VehicleValuationSnapshot) (catalogId : Uuid) (userVehicleId : Option Uuid)
    (date : IsoDate) : Decidable (v.Takes catalogId userVehicleId date) :=
  inferInstanceAs (Decidable (_ ∧ _ ∧ (_ → _)))

section Record
variable (rules : RegistryRules) (env : Env) (input : RecordVehicleValuationInput)

/-- The rate given, else that of the day of the snapshot. -/
def snapshotRate (date : IsoDate) (db : Db) : Except AppError Decimal :=
  match input.usdRate with
  | some rate => .ok rate
  | none => ((resolveUsdRateForDateToFreeze rules.history env date input.createdByUserId).answer
      db).map (·.rate)

/-- What the check of a valuation reads: the mileage is not among it. -/
def VehicleAsset.prices (vehicle : VehicleAsset) (model : CatalogModel)
    (ownershipDate valuationDate : IsoDate) (currentToman rate : Decimal) : VehiclePrices :=
  { model, manufacturingYear := vehicle.year, ownershipDate, valuationDate, mileage := none
    purchaseToman := vehicle.purchasePriceToman.getD 0
    purchaseRate := vehicle.purchaseUsdRate.getD 0, currentToman, currentRate := some rate }

/-- The check of the value of a vehicle that is there. -/
def blockedValue (s : VehicleStore) (catalogId vehicleId : Uuid) (date : IsoDate)
    (rate : Decimal) : Option String :=
  match s.db.findVehicle vehicleId, rules.catalogModel catalogId with
  | some vehicle, some model => rules.blockedVehicle
      (vehicle.prices model (s.ownershipDate vehicleId) date (input.currentValueToman.toFixed 0)
        rate)
  | _, _ => none

/-- A vehicle is the caller's, and its value is plausible. -/
def checkVehicleValue (s : VehicleStore) (catalogId : Uuid) (date : IsoDate) (rate : Decimal) :
    Except AppError Unit :=
  match input.userVehicleId with
  | none => .ok ()
  | some vehicleId => do
    complainUnless (∀ u ∈ input.createdByUserId, ∃ v ∈ s.db.vehicleAssets,
      v.id = vehicleId ∧ v.userId = some u) "خودرو یافت نشد یا متعلق به شما نیست."
    complainIf (blockedValue rules input s catalogId vehicleId date rate)

def RecordVehicleValuationInput.snapshot (catalogId : Uuid) (date : IsoDate) (rate : Decimal) :
    VehicleValuationSnapshot :=
  let value := input.currentValueToman.toFixed 0
  { vehicleCatalogId := catalogId, userVehicleId := input.userVehicleId, snapshotDate := date
    currentValueToman := value, usdRate := rate, currentValueUsd := tomanToUsd value rate
    createdByUserId := input.createdByUserId }

def recordVehicleValuationSnapshot (s : VehicleStore) : Except AppError VehicleStore := do
  let catalogId ← orComplain input.catalogId "خودرو (کاتالوگ) مشخص نشده است."
  let date ← orComplain input.snapshotDate "تاریخ ارزش‌گذاری الزامی است."
  complainUnless (0 < input.currentValueToman) "ارزش فعلی خودرو باید بزرگ‌تر از صفر باشد."
  let rate ← snapshotRate rules env input date s.db
  complainUnless (0 < rate) "نرخ دلار معتبر نیست."
  checkVehicleValue rules input s catalogId date rate
  complainUnless (∀ v ∈ s.valuations, ¬ v.Takes catalogId input.userVehicleId date)
    "برای این تاریخ ارزش‌گذاری ثبت شده است. اسنپ‌شات‌های قبلی تغییرناپذیرند؛ برای ارزش جدید یک تاریخ جدید ثبت کنید."
  if isIsoDate date then
    pure { s with valuations := s.valuations ++ [input.snapshot catalogId date rate] }
  else .error (.constraintViolation "vehicle_valuation_snapshots")

end Record

/-! ## The whole call -/

section Whole
variable (rules : RegistryRules) (env : Env) (input : CreateUserVehicleInput)

/-- The valuation that comes with the vehicle. -/
def InitialValuation.recorded (v : InitialValuation) (t : VehicleTerms) (vehicleId : Uuid)
    (userId : Option Uuid) : RecordVehicleValuationInput :=
  { catalogId := some t.model.id, userVehicleId := some vehicleId, snapshotDate := v.snapshotDate
    currentValueToman := v.valueToman, usdRate := v.usdRate, createdByUserId := userId }

def firstValuation (t : VehicleTerms) (created : CreatedVehicle) :
    Option RecordVehicleValuationInput :=
  (input.initialValuation.filter (0 < ·.valueToman)).map fun v =>
    v.recorded t created.id input.userId

/-- What the call answers, and what it leaves behind: only the transaction is undone. -/
def createUserVehicleWhole (s : VehicleStore) : Except AppError CreatedVehicle × VehicleStore :=
  match (vehicleTerms rules env input).answer s.db with
  | .error e => (.error e, s)
  | .ok t =>
    let classed := { s with hasRwaClass := true }
    match (registerVehicle rules env input t).run s.db with
    | .error e => (.error e, classed)
    | .ok (created, db) =>
      let registered := { classed with
        db, ownershipDates := (created.id, t.ownershipDate) :: s.ownershipDates }
      match firstValuation input t created with
      | none => (.ok created, registered)
      | some valuation =>
        match recordVehicleValuationSnapshot rules env valuation registered with
        | .error e => (.error e, registered)
        | .ok valued => (.ok created, valued)

/-- A valuation passes: it has a day, a rate and a plausible value, and the day is free. -/
def InitialValuation.Fits (v : InitialValuation) (s : VehicleStore) (t : VehicleTerms) : Prop :=
  ∃ date rate, v.snapshotDate = some date ∧ isIsoDate date = true ∧
    (v.usdRate = some rate ∨ v.usdRate = none ∧
      ((resolveUsdRateForDateToFreeze rules.history env date input.userId).answer s.db).map (·.rate) =
        .ok rate) ∧
    0 < rate ∧
    (∀ model, rules.catalogModel t.model.id = some model → rules.blockedVehicle
      ((t.row env input 0).prices model t.ownershipDate date (v.valueToman.toFixed 0) rate) = none) ∧
    ∀ w ∈ s.valuations, ¬ (w.userVehicleId = some env.vehicleId ∧ w.snapshotDate = date)

/-- There is no first valuation, or it passes. -/
def FirstValuationFits (s : VehicleStore) (t : VehicleTerms) : Prop :=
  ∀ v ∈ input.initialValuation, 0 < v.valueToman → v.Fits rules env input s t

end Whole

/-! ## What is accepted -/

section Accepted
variable {rules : RegistryRules} {env : Env}

theorem except_bind_ok {ε α β : Type} {x : Except ε α} {f : α → Except ε β} {b : β} :
    (x >>= f) = .ok b ↔ ∃ a, x = .ok a ∧ f a = .ok b := by
  cases x with
  | error e => simp [bind, Except.bind]
  | ok a => simp [bind, Except.bind]

@[simp] theorem complainUnless_ok {c : Prop} [Decidable c] {text : String} {u : Unit} :
    complainUnless c text = .ok u ↔ c := by
  unfold complainUnless
  split <;> simp_all

@[simp] theorem complainIf_ok {blocked : Option String} {u : Unit} :
    complainIf blocked = .ok u ↔ blocked = none := by
  unfold complainIf
  split <;> simp

/-- When a valuation of a vehicle is taken. -/
theorem recordVehicleValuationSnapshot_ok_iff {input : RecordVehicleValuationInput}
    {s : VehicleStore} {catalogId vehicleId : Uuid} (hcatalog : input.catalogId = some catalogId)
    (hvehicle : input.userVehicleId = some vehicleId) :
    (∃ t, recordVehicleValuationSnapshot rules env input s = .ok t) ↔
      ∃ date rate, input.snapshotDate = some date ∧ 0 < input.currentValueToman ∧
        snapshotRate rules env input date s.db = .ok rate ∧ 0 < rate ∧
        (∀ u ∈ input.createdByUserId, ∃ v ∈ s.db.vehicleAssets,
          v.id = vehicleId ∧ v.userId = some u) ∧
        blockedValue rules input s catalogId vehicleId date rate = none ∧
        (∀ v ∈ s.valuations, ¬ v.Takes catalogId (some vehicleId) date) ∧
        isIsoDate date = true := by
  simp only [recordVehicleValuationSnapshot, checkVehicleValue, hcatalog, hvehicle, except_bind_ok,
    orComplain_ok, complainUnless_ok, complainIf_ok, Option.some.injEq, exists_eq_left', exists_const]
  constructor
  · rintro ⟨t, date, hdate, hvalue, rate, hrate, hpos, ⟨howner, hblocked⟩, hfree, hday⟩
    split at hday
    · exact ⟨date, rate, hdate, hvalue, hrate, hpos, howner, hblocked, hfree, ‹_›⟩
    · cases hday
  · rintro ⟨date, rate, hdate, hvalue, hrate, hpos, howner, hblocked, hfree, hday⟩
    exact ⟨_, date, hdate, hvalue, rate, hrate, hpos, ⟨howner, hblocked⟩, hfree, if_pos hday⟩

end Accepted

/-! ## What a registration leaves alone -/

section Registered
variable {rules : RegistryRules} {env : Env} {input : CreateUserVehicleInput} {db db' : Db}
  {t : VehicleTerms} {created : CreatedVehicle}

/-- A write of a purchase, beside the asset and the row. -/
def Write.PaysVehicle (w : Write) : Prop :=
  w.AddsAccount ∨ w.OfEntry ∨ ∃ f, w = .insertFxSnapshot f

theorem payVehicle_writesOnly (t : VehicleTerms) (symbol : String) (userSeq : Nat) :
    (payVehicle rules env input t symbol userSeq).WritesOnly Write.PaysVehicle := by
  unfold payVehicle
  split
  · trivial
  · refine Tx.WritesOnly.bind ?_ fun bank => ?_
    · unfold requireTomanBankAccount
      refine ((Tx.readOnly_read _).bind fun row => (Tx.readOnly_ofExcept _).bind fun found => ?_).writesOnly
      exact (Tx.readOnly_require _ _).bind fun _ => Tx.readOnly_done _
    refine ((ensureVehicleAccount_writesOnly _ _ _ _).mono fun _ h => .inl h).bind fun account => ?_
    refine ((postEntry_writesOnly _ _).mono fun _ h => .inr (.inl h)).bind fun entry => ?_
    refine Tx.writesOnly_insert fun _ w hw => .inr (.inr ⟨_, List.mem_singleton.mp hw⟩)

/-- The rates, and the vehicles. -/
def Db.ratesAndVehicles (db : Db) :
    List ExchangeRate × List UserFxSetting × List Setting × List VehicleAsset :=
  (db.exchangeRates, db.userFxSettings, db.settings, db.vehicleAssets)

theorem paysVehicle_spares {w : Write} (h : w.PaysVehicle) (db : Db) :
    (w.apply db).ratesAndVehicles = db.ratesAndVehicles := by
  obtain ⟨a, rfl⟩ | h | ⟨f, rfl⟩ := h
  · rfl
  · obtain ⟨e, rfl⟩ | ⟨ps, rfl⟩ | h := h
    · rfl
    · rfl
    · cases w <;> first | rfl | exact h.elim
  · rfl

/-- The row is new, and the rates are those from before. -/
theorem registerVehicle_ok (h : (registerVehicle rules env input t).run db = .ok (created, db')) :
    created.id = env.vehicleId ∧ (∀ v ∈ db.vehicleAssets, v.id ≠ env.vehicleId) ∧
      db'.ratesAndVehicles = (db.exchangeRates, db.userFxSettings, db.settings,
        db.vehicleAssets ++ [t.row env input created.userSeq]) := by
  unfold registerVehicle nextRwaSymbol nextUserRwaSeq insertRwaAsset insertVehicleRow at h
  simp only [Tx.bind_assoc, Tx.pure_eq, Tx.done_bind, Tx.run_lock_bind, Tx.run_read_bind,
    Tx.run_insert_bind] at h
  split at h
  case isFalse => cases h
  split at h
  case isFalse => cases h
  rename_i hunused
  obtain ⟨_, db₁, hpay, hdone⟩ := Tx.run_bind_ok.mp h
  cases hdone
  obtain ⟨ws, hws, rfl⟩ := (payVehicle_writesOnly _ _ _).run_ok hpay
  refine ⟨rfl, fun v hv => (hunused v hv).1, ?_⟩
  exact applyAll_keeps (f := Db.ratesAndVehicles) (fun w hw => paysVehicle_spares (hws w hw)) _

theorem getLatestUsdIrtRateForUser_congr {userId : Option Uuid}
    (hrates : db'.exchangeRates = db.exchangeRates)
    (huser : db'.userFxSettings = db.userFxSettings) (hsettings : db'.settings = db.settings) :
    (getLatestUsdIrtRateForUser userId).answer db' = (getLatestUsdIrtRateForUser userId).answer db := by
  refine Tx.answer_bind_congr (Tx.readOnly_read _) (Tx.answer_read_congr (by rw [huser])) fun urow => ?_
  split
  · rfl
  refine Tx.answer_bind_congr (Tx.readOnly_read _) (Tx.answer_read_congr (by rw [hrates])) fun row => ?_
  split
  · rfl
  refine Tx.answer_bind_congr (Tx.readOnly_read _) (Tx.answer_read_congr (by rw [hsettings])) fun s => ?_
  split <;> rfl

/-- The rate of a day depends on the tables of rates alone. -/
theorem resolveUsdRateForDateToFreeze_congr (history : IsoDate → Option DatedRate) (env : Env)
    (date : IsoDate) (userId : Option Uuid) (hrates : db'.exchangeRates = db.exchangeRates)
    (huser : db'.userFxSettings = db.userFxSettings) (hsettings : db'.settings = db.settings) :
    (resolveUsdRateForDateToFreeze history env date userId).answer db' =
      (resolveUsdRateForDateToFreeze history env date userId).answer db := by
  refine Tx.answer_bind_congr (readOnly_resolveUsdRateForDate _ _ _ _) ?_ fun resolved => ?_
  · refine Tx.answer_bind_congr (Tx.readOnly_read _) (Tx.answer_read_congr (by rw [hrates])) fun exact => ?_
    split
    · rfl
    refine Tx.answer_bind_congr (Tx.readOnly_read _) (Tx.answer_read_congr (by rw [hrates])) fun row => ?_
    dsimp only
    split
    · rfl
    · rfl
    · exact Tx.answer_bind_congr (readOnly_getLatestUsdIrtRateForUser _)
        (getLatestUsdIrtRateForUser_congr hrates huser hsettings) fun _ => rfl
  · refine Tx.answer_bind_congr (Tx.readOnly_require _ _) ?_ fun _ => rfl
    simp only [Tx.answer, Tx.run_require]
    split <;> rfl

end Registered

/-! ## All or nothing -/

section Whole
variable {rules : RegistryRules} {env : Env} {input : CreateUserVehicleInput} {s : VehicleStore}
  {t : VehicleTerms} {created : CreatedVehicle} {db' : Db}

/-- The store after the commit. -/
def VehicleStore.registered (s : VehicleStore) (db' : Db) (created : CreatedVehicle)
    (t : VehicleTerms) : VehicleStore :=
  { s with db := db', hasRwaClass := true
           ownershipDates := (created.id, t.ownershipDate) :: s.ownershipDates }

theorem snapshotRate_ok_iff {valuation : RecordVehicleValuationInput} {date : IsoDate}
    {rate : Decimal} {db : Db} : snapshotRate rules env valuation date db = .ok rate ↔
      valuation.usdRate = some rate ∨ valuation.usdRate = none ∧
        ((resolveUsdRateForDateToFreeze rules.history env date valuation.createdByUserId).answer
          db).map (·.rate) = .ok rate := by
  unfold snapshotRate
  cases valuation.usdRate <;> simp

/-- The new vehicle is checked as it was registered. -/
theorem blockedValue_registered {valuation : RecordVehicleValuationInput} {catalogId : Uuid}
    {date : IsoDate} {rate : Decimal}
    (h : (registerVehicle rules env input t).run s.db = .ok (created, db')) :
    blockedValue rules valuation (s.registered db' created t) catalogId env.vehicleId date rate =
        none ↔
      ∀ model, rules.catalogModel catalogId = some model → rules.blockedVehicle
        ((t.row env input 0).prices model t.ownershipDate date
          (valuation.currentValueToman.toFixed 0) rate) = none := by
  obtain ⟨hid, hnew, htables⟩ := registerVehicle_ok h
  have hrows : db'.vehicleAssets = s.db.vehicleAssets ++ [t.row env input created.userSeq] :=
    congrArg (·.2.2.2) htables
  have hfind : db'.findVehicle env.vehicleId = some (t.row env input created.userSeq) := by
    have hnone : s.db.vehicleAssets.find? (·.id = env.vehicleId) = none := by
      simpa [List.find?_eq_none] using hnew
    simp [Db.findVehicle, hrows, List.find?_append, hnone, VehicleTerms.row]
  have hdate : (s.registered db' created t).ownershipDate env.vehicleId = t.ownershipDate := by
    simp [VehicleStore.registered, VehicleStore.ownershipDate, hid]
  have hstore : (s.registered db' created t).db.findVehicle env.vehicleId =
      some (t.row env input created.userSeq) := hfind
  unfold blockedValue
  rw [hstore, hdate]
  cases rules.catalogModel catalogId with
  | none => simp
  | some model => simp [VehicleAsset.prices, VehicleTerms.row]

/-- After the commit a valuation is taken exactly when it fits the store from before. -/
theorem recorded_ok_iff (h : (registerVehicle rules env input t).run s.db = .ok (created, db'))
    {v : InitialValuation} (hv : 0 < v.valueToman) :
    (∃ u, recordVehicleValuationSnapshot rules env (v.recorded t created.id input.userId)
      (s.registered db' created t) = .ok u) ↔ v.Fits rules env input s t := by
  obtain ⟨hid, -, htables⟩ := registerVehicle_ok h
  obtain ⟨hrates, huser, hsettings, hrows⟩ : db'.exchangeRates = s.db.exchangeRates ∧
      db'.userFxSettings = s.db.userFxSettings ∧ db'.settings = s.db.settings ∧
      db'.vehicleAssets = s.db.vehicleAssets ++ [t.row env input created.userSeq] := by
    simpa [Db.ratesAndVehicles] using htables
  have hrate (date : IsoDate) := resolveUsdRateForDateToFreeze_congr rules.history env date
    input.userId hrates huser hsettings
  have howner : ∀ u ∈ input.userId, ∃ v ∈ db'.vehicleAssets,
      v.id = env.vehicleId ∧ v.userId = some u :=
    fun u hu => ⟨t.row env input created.userSeq, by simp [hrows], rfl, hu⟩
  have htakes (w : VehicleValuationSnapshot) (date : IsoDate) :
      w.Takes t.model.id (some env.vehicleId) date ↔
        w.userVehicleId = some env.vehicleId ∧ w.snapshotDate = date := by
    simp [VehicleValuationSnapshot.Takes]
  rw [recordVehicleValuationSnapshot_ok_iff rfl rfl, hid]
  simp only [snapshotRate_ok_iff, blockedValue_registered h, htakes]
  constructor
  · rintro ⟨date, rate, hdate, -, hrated, hpos, -, hblocked, hfree, hday⟩
    refine ⟨date, rate, hdate, hday, ?_, hpos, hblocked, hfree⟩
    exact hrated.imp_right fun hresolved => ⟨hresolved.1, hrate date ▸ hresolved.2⟩
  · rintro ⟨date, rate, hdate, hday, hrated, hpos, hblocked, hfree⟩
    refine ⟨date, rate, hdate, hv, ?_, hpos, howner, hblocked, hfree, hday⟩
    exact hrated.imp_right fun hresolved => ⟨hresolved.1, (hrate date).symm ▸ hresolved.2⟩

/-- A registration that committed has changed the store. -/
theorem registered_ne (h : (registerVehicle rules env input t).run s.db = .ok (created, db')) :
    s.registered db' created t ≠ s := by
  obtain ⟨-, -, htables⟩ := registerVehicle_ok h
  intro hsame
  have hdb : db' = s.db := congrArg VehicleStore.db hsame
  have hlen := congrArg (·.2.2.2.length) htables
  simp [hdb, Db.ratesAndVehicles] at hlen

/-- A call that fails leaves everything as it was. -/
def AllOrNothing (rules : RegistryRules) (env : Env) (input : CreateUserVehicleInput)
    (s : VehicleStore) : Prop :=
  ∀ e, (createUserVehicleWhole rules env input s).1 = .error e →
    (createUserVehicleWhole rules env input s).2 = s

/-- Of a transaction that is undone the class of the registries is left. -/
theorem allOrNothing_of_refused {e : AppError}
    (hterms : (vehicleTerms rules env input).answer s.db = .ok t)
    (hrun : (registerVehicle rules env input t).run s.db = .error e) :
    AllOrNothing rules env input s ↔ s.hasRwaClass = true := by
  have hwhole : createUserVehicleWhole rules env input s =
      (.error e, { s with hasRwaClass := true }) := by
    simp [createUserVehicleWhole, hterms, hrun]
  unfold AllOrNothing
  rw [hwhole]
  constructor
  · intro h
    exact (congrArg VehicleStore.hasRwaClass (h e rfl)).symm
  · intro hclass _ _
    obtain ⟨db, hasRwaClass, ownershipDates, valuations⟩ := s
    exact congrArg (VehicleStore.mk db · ownershipDates valuations) hclass.symm

/-- Of a transaction that commits everything is left. -/
theorem allOrNothing_of_commit (hterms : (vehicleTerms rules env input).answer s.db = .ok t)
    (hrun : (registerVehicle rules env input t).run s.db = .ok (created, db')) :
    AllOrNothing rules env input s ↔ FirstValuationFits rules env input s t := by
  have hwhole : createUserVehicleWhole rules env input s =
      match firstValuation input t created with
      | none => (.ok created, s.registered db' created t)
      | some valuation =>
        match recordVehicleValuationSnapshot rules env valuation
            (s.registered db' created t) with
        | .error e => (.error e, s.registered db' created t)
        | .ok valued => (.ok created, valued) := by
    simp only [createUserVehicleWhole, hterms, hrun]
    rfl
  unfold AllOrNothing FirstValuationFits
  rw [hwhole]
  cases hfirst : input.initialValuation.filter (0 < ·.valueToman) with
  | none =>
    have hnone : firstValuation input t created = none := by simp [firstValuation, hfirst]
    rw [hnone]
    simp only [reduceCtorEq, false_implies, implies_true, true_iff]
    intro v hv hpos
    have hkept := Option.filter_eq_none_iff.mp hfirst v hv
    simp [hpos] at hkept
  | some v =>
    obtain ⟨hv, hpos⟩ := Option.filter_eq_some_iff.mp hfirst
    have hpos : 0 < v.valueToman := by simpa using hpos
    have htaken := recorded_ok_iff hrun hpos
    have hsome : firstValuation input t created =
        some (v.recorded t created.id input.userId) := by simp [firstValuation, hfirst]
    have honly : (∀ w ∈ input.initialValuation, 0 < w.valueToman → w.Fits rules env input s t) ↔
        v.Fits rules env input s t := by
      simp [hv, hpos]
    rw [hsome, honly]
    dsimp only
    cases hrecord : recordVehicleValuationSnapshot rules env
        (v.recorded t created.id input.userId) (s.registered db' created t) with
    | error e =>
      have hno : ¬ v.Fits rules env input s t := by simpa [hrecord] using htaken
      exact ⟨fun h => absurd (h e rfl) (registered_ne hrun), fun h => absurd h hno⟩
    | ok u =>
      have hfits : v.Fits rules env input s t := htaken.mp ⟨u, hrecord⟩
      exact ⟨fun _ => hfits, fun _ e he => by cases he⟩

/-- A call that fails leaves everything as it was exactly when the class of the registries is there
or the transaction commits, and the first valuation, if one comes along, fits. -/
theorem createUserVehicleWhole_iff (rules : RegistryRules) (env : Env)
    (input : CreateUserVehicleInput) (s : VehicleStore) : AllOrNothing rules env input s ↔
    ∀ t, (vehicleTerms rules env input).answer s.db = .ok t →
      ((registerVehicle rules env input t).Refused s.db → s.hasRwaClass = true) ∧
      (¬ (registerVehicle rules env input t).Refused s.db →
        FirstValuationFits rules env input s t) := by
  cases hterms : (vehicleTerms rules env input).answer s.db with
  | error e => simp [AllOrNothing, createUserVehicleWhole, hterms]
  | ok t =>
    simp only [Except.ok.injEq, forall_eq']
    rcases (registerVehicle rules env input t).ok_or_refused s.db with ⟨created, db', hrun⟩ | hno
    · have hcommits : ¬ (registerVehicle rules env input t).Refused s.db := by
        rintro ⟨e, he⟩
        rw [hrun] at he
        cases he
      simp [hcommits, allOrNothing_of_commit hterms hrun]
    · obtain ⟨e, he⟩ := hno
      have hrefused : (registerVehicle rules env input t).Refused s.db := ⟨e, he⟩
      simp [hrefused, allOrNothing_of_refused hterms he]

end Whole

/-! ## A car valued at no rate -/

/-- A car for two hundred million Toman, and its value at a rate of 0. -/
def zeroRateCar : CreateUserVehicleInput :=
  { catalogId := some 7, manufacturingYear := 1400, ownershipDate := some 20260501
    purchasePriceToman := .ofInt 200000000, paymentAccountId := some 11, userId := some 1
    initialValuation := some ⟨.ofInt 210000000, some 20260501, some 0⟩ }

def showroomStore : VehicleStore := ⟨demoShowroom, true, [], []⟩

/-- The ids of the second call. -/
def secondCarEnv : Env :=
  { entryId := 2, today := 20260501, vehicleId := 6, rwaAssetId := 10, accountId := 14 }

def firstTry : Except AppError CreatedVehicle × VehicleStore :=
  createUserVehicleWhole showroomRules carPurchaseEnv zeroRateCar showroomStore

def secondTry : Except AppError CreatedVehicle × VehicleStore :=
  createUserVehicleWhole showroomRules secondCarEnv zeroRateCar firstTry.2

/-- The call is refused and repeated, and is refused again: there are two cars, both paid for. -/
theorem vehicle_bought_twice : firstTry.1.isOk = false ∧ secondTry.1.isOk = false ∧
    showroomStore.db.vehicleAssets.map (·.id) = [] ∧
    secondTry.2.db.vehicleAssets.map (·.id) = [5, 6] ∧
    (secondTry.2.db.postings.filter (·.accountId = 11)).map (·.quantity) =
      [.ofInt 1000000000, .ofInt (-200000000), .ofInt (-200000000)] ∧
    secondTry.2.valuations = [] := by
  decide

end Pwos

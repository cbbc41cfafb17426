import Pwos.Rwa.FirstValuation
import Pwos.Rwa.RegistryNumbers
import Pwos.Setup.SetupRaces
import Pwos.Setup.Workflow

/-!
# What a setup registers

The vehicles, properties, debts and states of setups that each transaction of the workflow adds,
whatever it finds and whoever runs beside it.
-/

namespace Pwos

/-! ## Rows that are added -/

/-- The ids of the vehicles, of the properties, of the debts. -/
def Db.registered (db : Db) : ItemKind → List Uuid
  | .vehicle => db.vehicleAssets.map (·.id)
  | .property => db.realEstateProperties.map (·.id)
  | .debt => db.debts.map (·.id)

/-- The writes add these ids and these states. -/
structure RegistersRows (ws : List Write) (made : ItemKind → List Uuid)
    (states : List UserSetupState) : Prop where
  ids : ∀ (db : Db) kind, (applyAll ws db).registered kind = db.registered kind ++ made kind
  states : ∀ db : Db, (applyAll ws db).userSetupState = db.userSetupState ++ states

/-- One id of one kind. -/
def onlyItem (kind : ItemKind) (id : Uuid) (k : ItemKind) : List Uuid :=
  if k = kind then [id] else []

def noItem (_ : ItemKind) : List Uuid := []

/-- Whatever it finds, the program adds these ids and states, and its result is so. -/
def Enters {α : Type} (made : ItemKind → List Uuid) (states : List UserSetupState) (R : α → Prop)
    (p : Sql α) : Prop :=
  p.Yields (fun a ws _ => R a ∧ RegistersRows ws made states) [] []

/-- The write leaves the registries and the setups alone. -/
def Write.Quiet (w : Write) : Prop := RegistersRows [w] noItem []

section RegistersRows
variable {ws vs : List Write} {made made' : ItemKind → List Uuid}
  {states states' : List UserSetupState}

theorem registers_nil : RegistersRows [] noItem [] :=
  ⟨fun _ _ => (List.append_nil _).symm, fun _ => (List.append_nil _).symm⟩

theorem RegistersRows.append (h : RegistersRows ws made states)
    (h' : RegistersRows vs made' states') :
    RegistersRows (ws ++ vs) (fun k => made k ++ made' k) (states ++ states') where
  ids db kind := by rw [applyAll_append, h'.ids, h.ids, List.append_assoc]
  states db := by rw [applyAll_append, h'.states, h.states, List.append_assoc]

theorem registers_quiet (h : ∀ w ∈ ws, w.Quiet) : RegistersRows ws noItem [] := by
  induction ws with
  | nil => exact registers_nil
  | cons w ws ih =>
    exact (h w List.mem_cons_self).append (ih fun v hv => h v (List.mem_cons_of_mem w hv))

theorem quiet_of_tables {w : Write} (h : ∀ db, (w.apply db).vehicleAssets = db.vehicleAssets ∧
    (w.apply db).realEstateProperties = db.realEstateProperties ∧ (w.apply db).debts = db.debts ∧
    (w.apply db).userSetupState = db.userSetupState) : w.Quiet where
  ids db kind := by
    obtain ⟨hv, hp, hd, -⟩ := h db
    cases kind <;> simp [Db.registered, Writable.apply, noItem, hv, hp, hd]
  states db := ((h db).2.2.2).trans (List.append_nil _).symm

theorem quiet_ofEntry {w : Write} (h : w.OfEntry) : w.Quiet := by
  refine quiet_of_tables fun db => ?_
  rcases h with ⟨e, rfl⟩ | ⟨ps, rfl⟩ | h
  · exact ⟨rfl, rfl, rfl, rfl⟩
  · exact ⟨rfl, rfl, rfl, rfl⟩
  · cases w <;> first | exact ⟨rfl, rfl, rfl, rfl⟩ | exact h.elim

theorem quiet_ofSetup {w : Write} (h : w.OfSetup) : w.Quiet := by
  refine quiet_of_tables fun db => ?_
  cases w <;> first | exact ⟨rfl, rfl, rfl, rfl⟩ | exact h.elim

theorem quiet_addsAccount {w : Write} (h : w.AddsAccount) : w.Quiet := by
  obtain ⟨a, rfl⟩ := h
  exact quiet_of_tables fun _ => ⟨rfl, rfl, rfl, rfl⟩

theorem quiet_extendsChart {w : Write} (h : w.ExtendsChart) : w.Quiet := by
  obtain ⟨a, rfl⟩ | ⟨a, rfl⟩ := h <;> exact quiet_of_tables fun _ => ⟨rfl, rfl, rfl, rfl⟩

theorem quiet_insertFxSnapshot (f : EntryFxSnapshot) : (Write.insertFxSnapshot f).Quiet :=
  quiet_of_tables fun _ => ⟨rfl, rfl, rfl, rfl⟩

theorem quiet_paysVehicle {w : Write} (h : w.PaysVehicle) : w.Quiet := by
  obtain h | h | ⟨f, rfl⟩ := h
  · exact quiet_addsAccount h
  · exact quiet_ofEntry h
  · exact quiet_insertFxSnapshot f

theorem quiet_setPropertyEntry (i e : Uuid) : (Write.setPropertyEntry i e).Quiet where
  ids db kind := by
    cases kind with
    | vehicle => simp [Db.registered, Writable.apply, Write.apply, noItem]
    | debt => simp [Db.registered, Writable.apply, Write.apply, noItem]
    | property =>
      simp only [Db.registered, applyAll_cons, applyAll_nil, Writable.apply, Write.apply,
        List.map_map, noItem, List.append_nil]
      refine List.map_congr_left fun p _ => ?_
      simp only [Function.comp_apply]
      split <;> rfl
  states db := (List.append_nil _).symm

end RegistersRows

section Enters
variable {α β : Type} {made made' : ItemKind → List Uuid} {states states' : List UserSetupState}
  {R : α → Prop} {S : β → Prop} {p : Sql α} {f : α → Sql β}

theorem Enters.bind (hp : Enters made states R p) (hf : ∀ a, R a → Enters made' states' S (f a)) :
    Enters (fun k => made k ++ made' k) (states ++ states') S (p >>= f) := by
  refine Tx.Yields.bind hp ?_
  rintro a ws ks ⟨ha, hws⟩
  have hgen : ∀ {q : Sql β} {us : List Write} {is : List Row},
      q.Yields (fun b vs _ => S b ∧ RegistersRows vs made' states') us is → q.Yields (fun b vs _ =>
        S b ∧ RegistersRows vs (fun k => made k ++ made' k) (states ++ states'))
        (ws ++ us) (ks ++ is) := by
    intro q us is h
    induction q generalizing us is with
    | done b => exact ⟨h.1, hws.append h.2⟩
    | fail e => trivial
    | stmt l x w n ih =>
      intro s
      rw [List.append_assoc, List.append_assoc]
      exact ih s (h s)
  simpa using hgen (hf a ha)

theorem enters_quiet (h : p.WritesOnly Write.Quiet) : Enters noItem [] (fun _ => True) p :=
  (h.yields fun _ hw => absurd hw List.not_mem_nil).mono
    fun _ _ _ hws => ⟨trivial, registers_quiet hws⟩

theorem Enters.after_quiet (hp : p.WritesOnly Write.Quiet) (hf : ∀ a, Enters made states S (f a)) :
    Enters made states S (p >>= f) :=
  (enters_quiet hp).bind fun a _ => hf a

theorem Enters.then_quiet (hp : Enters made states R p)
    (hf : ∀ a, R a → Enters noItem [] S (f a)) : Enters made states S (p >>= f) := by
  have h := hp.bind hf
  simpa [noItem] using h

theorem enters_done {b : β} (h : S b) : Enters noItem [] S (Tx.done b : Sql β) := ⟨h, registers_nil⟩

theorem enters_insert {rows : Db → List Row} {ok : Db → Prop} [DecidablePred ok] {w : Write}
    {e : AppError} (h : RegistersRows [w] made states) :
    Enters made states (fun _ => True) (Tx.insert rows ok (fun _ => [w]) e) := by
  intro db
  simp only
  split
  · exact ⟨trivial, h⟩
  · trivial

theorem quiet_write {rows : Db → List Row} {ws : Db → List Write} (h : ∀ db, ∀ w ∈ ws db, w.Quiet) :
    (Tx.write rows ws : Sql Unit).WritesOnly Write.Quiet := fun s => ⟨h s, trivial⟩

theorem quiet_lock {rows : Db → List Row} {g : Db → α} :
    (Tx.lock rows g : Sql α).WritesOnly Write.Quiet := fun _ => ⟨by simp, trivial⟩

end Enters

/-! ## The registrations -/

section Registries
variable (rules : RegistryRules) (env : Env)

theorem registers_vehicle (v : VehicleAsset) :
    RegistersRows [.insertVehicle v] (onlyItem .vehicle v.id) [] where
  ids db kind := by cases kind <;> simp [Db.registered, Writable.apply, Write.apply, onlyItem]
  states db := (List.append_nil _).symm

theorem registers_property (p : RealEstateProperty) :
    RegistersRows [.insertProperty p] (onlyItem .property p.id) [] where
  ids db kind := by cases kind <;> simp [Db.registered, Writable.apply, Write.apply, onlyItem]
  states db := (List.append_nil _).symm

theorem registers_debt (d : Debt) : RegistersRows [.insertDebt d] (onlyItem .debt d.id) [] where
  ids db kind := by cases kind <;> simp [Db.registered, Writable.apply, Write.apply, onlyItem]
  states db := (List.append_nil _).symm

theorem quiet_nextRwaSymbol : nextRwaSymbol.WritesOnly Write.Quiet := by
  unfold nextRwaSymbol
  refine quiet_lock.bind fun _ => ?_
  exact (Tx.readOnly_read _).writesOnly.bind fun _ => trivial

theorem quiet_nextUserRwaSeq (kind : RwaKind) (userId : Option Uuid) :
    (nextUserRwaSeq kind userId).WritesOnly Write.Quiet := by
  unfold nextUserRwaSeq
  refine quiet_lock.bind fun _ => ?_
  exact (Tx.readOnly_read _).writesOnly.bind fun _ => trivial

theorem quiet_insertRwaAsset (symbol : String) :
    (insertRwaAsset env symbol).WritesOnly Write.Quiet := by
  refine Tx.writesOnly_insert fun _ w hw => ?_
  rw [List.mem_singleton.mp hw]
  exact quiet_of_tables fun _ => ⟨rfl, rfl, rfl, rfl⟩

theorem createUserVehicle_enters (input : CreateUserVehicleInput) :
    Enters (onlyItem .vehicle env.vehicleId) [] (·.id = env.vehicleId)
      (createUserVehicle rules env input) := by
  unfold createUserVehicle
  refine .after_quiet (readOnly_vehicleTerms _ _ _).writesOnly fun t => ?_
  unfold registerVehicle
  refine .after_quiet quiet_nextRwaSymbol fun symbol => ?_
  refine .after_quiet (quiet_nextUserRwaSeq _ _) fun seq => ?_
  refine .after_quiet (quiet_insertRwaAsset env symbol) fun _ => ?_
  refine Enters.then_quiet (enters_insert (registers_vehicle _)) fun _ _ => ?_
  refine .after_quiet
    ((payVehicle_writesOnly t symbol seq).mono fun _ => quiet_paysVehicle) fun _ => ?_
  exact enters_done rfl

theorem quiet_insertValuationSnapshot (snapshot : RealEstateValuationSnapshot) :
    (insertValuationSnapshot snapshot).WritesOnly Write.Quiet := by
  unfold insertValuationSnapshot
  refine (Tx.readOnly_read _).writesOnly.bind fun existing => ?_
  refine (Tx.readOnly_require _ _).writesOnly.bind fun _ => Tx.writesOnly_insert fun db w hw => ?_
  rw [List.mem_singleton.mp hw]
  exact quiet_of_tables fun _ => ⟨rfl, rfl, rfl, rfl⟩

theorem quiet_freezeRate (f : EntryFxSnapshot) : (freezeRate f).WritesOnly Write.Quiet := by
  refine quiet_write fun db w hw => ?_
  split at hw
  · cases hw
  · rw [List.mem_singleton.mp hw]
    exact quiet_insertFxSnapshot f

theorem quiet_postRealEstateOpeningEntry (input : CreateRealEstateAssetInput) (t : PropertyTerms)
    (label symbol : String) (payment : Option TomanBankAccount) :
    (postRealEstateOpeningEntry rules env input t label symbol payment).WritesOnly Write.Quiet := by
  unfold postRealEstateOpeningEntry
  refine ((ensureRealEstateLedgerAccounts_writesOnly env).mono fun _ => quiet_addsAccount).bind
    fun accounts => ?_
  refine ((ensureUsdAssetId_writesOnly env).mono fun _ => quiet_extendsChart).bind fun usd => ?_
  refine ((postEntry_writesOnly env _).mono fun _ => quiet_ofEntry).bind fun result => ?_
  exact (quiet_freezeRate _).bind fun _ => trivial

theorem quiet_recordCurrentPrice (assetId : Uuid) (valueUsd : Decimal) (date : IsoDate) :
    (recordCurrentPrice assetId valueUsd date).WritesOnly Write.Quiet := by
  unfold recordCurrentPrice Tx.when
  split
  · refine quiet_write fun db w hw => ?_
    rw [List.mem_singleton.mp hw]
    exact quiet_of_tables fun _ => ⟨rfl, rfl, rfl, rfl⟩
  · trivial

theorem createRealEstateAsset_enters (input : CreateRealEstateAssetInput) :
    Enters (onlyItem .property env.propertyId) [] (·.id = env.propertyId)
      (createRealEstateAsset rules env input) := by
  unfold createRealEstateAsset
  refine .after_quiet (readOnly_propertyTerms _ _ _).writesOnly fun t => ?_
  unfold registerProperty
  refine .after_quiet (readOnly_payingBank rules input).writesOnly fun payment => ?_
  refine .after_quiet quiet_nextRwaSymbol fun symbol => ?_
  refine .after_quiet (quiet_nextUserRwaSeq _ _) fun seq => ?_
  refine .after_quiet (quiet_insertRwaAsset env symbol) fun _ => ?_
  refine Enters.then_quiet (enters_insert (registers_property _)) fun _ _ => ?_
  refine .after_quiet (quiet_insertValuationSnapshot _) fun _ => ?_
  refine .after_quiet
    (quiet_postRealEstateOpeningEntry rules env input t _ symbol payment) fun entryId => ?_
  refine .after_quiet (quiet_write fun db w hw => ?_) fun _ => ?_
  · rw [List.mem_singleton.mp hw]
    exact quiet_setPropertyEntry _ _
  refine .after_quiet (quiet_recordCurrentPrice _ _ _) fun _ => ?_
  exact enters_done rfl

theorem createDebtRecord_enters (input : CreateDebtInput) (rate : Decimal) :
    Enters (onlyItem .debt env.debtId) [] (· = env.debtId) (createDebtRecord env input rate) := by
  unfold createDebtRecord
  refine .after_quiet (Tx.readOnly_ofExcept _).writesOnly fun _ => ?_
  refine .after_quiet (Tx.readOnly_require _ _).writesOnly fun _ => ?_
  refine .after_quiet (Tx.readOnly_ofExcept _).writesOnly fun amounts => ?_
  refine Enters.then_quiet (enters_insert (registers_debt _)) fun _ _ => ?_
  refine .after_quiet ?_ fun _ => enters_done rfl
  unfold Tx.when
  split
  · refine Tx.writesOnly_insert fun db w hw => ?_
    rw [List.mem_singleton.mp hw]
    exact quiet_of_tables fun _ => ⟨rfl, rfl, rfl, rfl⟩
  · trivial

end Registries

/-! ## The books -/

section Books
variable (rules : SetupRules) (env : Env) (ids : SetupIds) (userId : Uuid)

theorem quiet_postOpening (assetMap : String → Option Uuid) (accounts : List Account)
    (rates : SetupRates) (lines : List OpeningLine) :
    (postOpening env userId assetMap accounts rates lines).WritesOnly Write.Quiet := by
  unfold postOpening
  split
  · trivial
  refine (Tx.readOnly_read _).writesOnly.bind fun equity => ?_
  split
  · trivial
  refine ((postEntry_writesOnly env _).mono fun _ => quiet_ofEntry).bind fun opening => ?_
  unfold Tx.when
  split
  · refine quiet_write fun db w hw => ?_
    split at hw
    · cases hw
    · rw [List.mem_singleton.mp hw]
      exact quiet_insertFxSnapshot _
  · trivial

theorem registers_state (s : UserSetupState) : RegistersRows [.insertSetupState s] noItem [s] where
  ids db kind := by cases kind <;> simp [Db.registered, Writable.apply, Write.apply, noItem]
  states _ := rfl

theorem completeSetup_enters (input : SetupInput) :
    Enters noItem [⟨userId, false, 9, env.now⟩] (fun _ => True)
      (completeSetup rules env ids userId true input) := by
  have haside {α : Type} {p : Sql α} (h : p.WritesOnly Write.OfSetup) :
      p.WritesOnly Write.Quiet := h.mono fun _ => quiet_ofSetup
  refine .after_quiet readOnly_prepareSetup.writesOnly fun r => ?_
  unfold runSetup
  refine .after_quiet (haside (writesOnly_each _ insertRequiredAsset_ofSetup)) fun _ => ?_
  refine .after_quiet (haside (writesOnly_each _ reviveSymbol_ofSetup)) fun _ => ?_
  refine .after_quiet (Tx.readOnly_read _).writesOnly fun assetMap => ?_
  refine .after_quiet quiet_lock fun found => ?_
  refine .after_quiet (Tx.readOnly_require _ _).writesOnly fun _ => ?_
  refine .after_quiet (readOnly_resolveSetupRate _).writesOnly fun rate => ?_
  refine .after_quiet (Tx.readOnly_ofExcept _).writesOnly fun plan => ?_
  refine .after_quiet (haside (openChart_ofSetup plan)) fun accounts => ?_
  refine .after_quiet (haside (openingLines_ofSetup plan)) fun lines => ?_
  refine .after_quiet ?_ fun _ => ?_
  · unfold Tx.when
    split
    · exact quiet_postOpening env userId _ _ _ lines
    · trivial
  · exact fun _ => ⟨trivial, registers_state _⟩

end Books

end Pwos

import Pwos.Ledger.Statements
import Pwos.Lib.History
import Pwos.Rwa.Bought
import Pwos.Rwa.HiddenEntries

/-!
# The numbers of the registries

A real asset has two numbers: its symbol, among the live assets of everybody, and its sequence
number, among the properties or the vehicles of its user. Both are chosen by looking for the
first gap, under a lock of the class and one of the user. Sales and deletions make gaps without
a lock.

In every interleaving the numbers stay apart, and each is the smallest that was free when the
registration looked, with the lock in its hands (`numbers_of_registrations`). When it took the
lock, a larger one may have been the smallest.
-/

namespace Pwos

/-! ## The first gap -/

theorem firstFree_isLeast {taken : Nat → Bool} {fuel n : Nat}
    (h : ∃ m, n ≤ m ∧ m ≤ n + fuel ∧ taken m = false) :
    IsLeast {m | n ≤ m ∧ taken m = false} (firstFree taken fuel n) := by
  induction fuel generalizing n with
  | zero =>
    obtain ⟨m, hle, hge, hm⟩ := h
    obtain rfl : m = n := by omega
    exact ⟨⟨hle, hm⟩, fun k hk => hk.1⟩
  | succ fuel ih =>
    unfold firstFree
    split
    · rename_i htaken
      have hne : ∀ m, taken m = false → m ≠ n := by grind
      have hnext : ∃ m, n + 1 ≤ m ∧ m ≤ n + 1 + fuel ∧ taken m = false := by
        obtain ⟨m, hle, hge, hm⟩ := h
        have := hne m hm
        exact ⟨m, by omega, by omega, hm⟩
      have hleast := ih hnext
      refine ⟨⟨by have := hleast.1.1; omega, hleast.1.2⟩, fun k hk => hleast.2 ⟨?_, hk.2⟩⟩
      have := hne k hk.2
      have := hk.1
      omega
    · rename_i hfree
      exact ⟨⟨le_rfl, by simpa using hfree⟩, fun k hk => hk.1⟩

/-- Different labels do not all stand in a list that is too short. -/
theorem exists_unused {β : Type} [DecidableEq β] {f : Nat → β} (hf : f.Injective) (xs : List β) :
    ∃ m, 1 ≤ m ∧ m ≤ 1 + xs.length ∧ f m ∉ xs := by
  by_contra hnone
  push Not at hnone
  have hsub : (Finset.Icc 1 (1 + xs.length)).image f ⊆ xs.toFinset := by
    intro b hb
    obtain ⟨m, hm, rfl⟩ := Finset.mem_image.mp hb
    have hm := Finset.mem_Icc.mp hm
    exact List.mem_toFinset.mpr (hnone m hm.1 hm.2)
  have hcard := Finset.card_le_card hsub
  rw [Finset.card_image_of_injective _ hf, Nat.card_Icc] at hcard
  have := xs.toFinset_card_le
  omega

theorem firstFree_unused {β : Type} [DecidableEq β] {f : Nat → β} (hf : f.Injective)
    (xs : List β) :
    IsLeast {m | 1 ≤ m ∧ f m ∉ xs} (firstFree (fun n => f n ∈ xs) xs.length 1) := by
  have h : ∃ m, 1 ≤ m ∧ m ≤ 1 + xs.length ∧ decide (f m ∈ xs) = false := by
    simpa using exists_unused hf xs
  simpa using firstFree_isLeast h

theorem buildRwaSymbol_injective : buildRwaSymbol.Injective := by
  intro m n h
  have hdigits := String.ofList_injective h
  have hvalue := congrArg (Nat.ofDigitChars 10 · 0) hdigits
  simpa [List.leftpad, Nat.ofDigitChars_append, Nat.ofDigitChars_replicate_zero,
    Nat.ofDigitChars_ten_toDigits] using hvalue

/-! ## Numbers in use -/

/-- No number is used twice: the symbols of the live assets, and for every user those of the
properties and those of the vehicles. -/
structure Db.NumbersApart (db : Db) : Prop where
  symbols : db.occupiedSymbols.Nodup
  seqs : ∀ u kind, (db.userSeqs u kind).Nodup

/-- Applied anywhere, the write takes no number into use. -/
structure Write.FreesOnly (w : Write) : Prop where
  symbols : ∀ db, (w.apply db).occupiedSymbols.Sublist db.occupiedSymbols
  seqs : ∀ db u kind, ((w.apply db).userSeqs u kind).Sublist (db.userSeqs u kind)

section Update
variable {α β γ : Type} {f : α → α}

/-- Rows that are updated may leave a selection, and keep what is selected of them. -/
theorem sublist_of_update {p : α → Bool} {g : α → β} (h : ∀ x, p (f x) → p x ∧ g (f x) = g x)
    (xs : List α) : (((xs.map f).filter p).map g).Sublist ((xs.filter p).map g) := by
  induction xs with
  | nil => exact .refl _
  | cons x xs ih =>
    rw [List.map_cons, List.filter_cons, List.filter_cons]
    by_cases hf : p (f x)
    · obtain ⟨hx, hg⟩ := h x hf
      rw [if_pos hf, if_pos hx, List.map_cons, List.map_cons, hg]
      exact ih.cons_cons _
    · rw [if_neg hf]
      split
      · exact ih.cons _
      · exact ih

theorem seqs_of_update [DecidableEq γ] {owner : α → γ} {seq : α → Option β} {u : γ}
    (howner : ∀ x, owner (f x) = owner x) (hseq : ∀ x, seq (f x) = seq x) (xs : List α) :
    (((xs.map f).filter (owner · = u)).filterMap seq).Sublist
      ((xs.filter (owner · = u)).filterMap seq) := by
  simp [List.filter_map, List.filterMap_map, Function.comp_def, howner, hseq]

theorem map_filter_append_of_neg {p : α → Bool} {g : α → β} {x : α} (h : ¬ p x) (xs : List α) :
    ((xs ++ [x]).filter p).map g = (xs.filter p).map g := by
  rw [List.filter_append, List.filter_cons_of_neg h, List.filter_nil, List.append_nil]

end Update

section Frees
variable {w : Write} {db : Db}

theorem freesOnly_of_tables (h : ∀ db, (w.apply db).assets = db.assets ∧
    (w.apply db).realEstateProperties = db.realEstateProperties ∧
    (w.apply db).vehicleAssets = db.vehicleAssets) : w.FreesOnly := by
  constructor
  · intro db
    rw [Db.occupiedSymbols, (h db).1]
    exact .refl _
  · intro db u kind
    cases kind <;> simp only [Db.userSeqs, (h db).2.1, (h db).2.2] <;> exact .refl _

theorem freesOnly_ofEntry (h : w.OfEntry) : w.FreesOnly := by
  apply freesOnly_of_tables
  intro db
  rcases h with ⟨e, rfl⟩ | ⟨ps, rfl⟩ | h
  · exact ⟨rfl, rfl, rfl⟩
  · exact ⟨rfl, rfl, rfl⟩
  · cases w <;> first | exact ⟨rfl, rfl, rfl⟩ | exact h.elim

theorem freesOnly_addsAccount (h : w.AddsAccount) : w.FreesOnly := by
  obtain ⟨a, rfl⟩ := h
  exact freesOnly_of_tables fun _ => ⟨rfl, rfl, rfl⟩

/-- A symbol that is no number. -/
theorem freesOnly_insertAsset {a : Asset} (h : ¬ a.symbol.toList.all Char.isDigit) :
    (Write.insertAsset a).FreesOnly := by
  constructor
  · intro db
    rw [Db.occupiedSymbols, Db.occupiedSymbols, Write.apply, map_filter_append_of_neg]
    exact fun hin => h (of_decide_eq_true hin).2.1
  · intro db u kind
    cases kind <;> exact .refl _

theorem freesOnly_archiveAsset (i : Uuid) : (Write.archiveAsset i).FreesOnly := by
  constructor
  · intro db
    refine sublist_of_update (fun a ha => ?_) _
    split at ha <;> simp_all
  · intro db u kind
    cases kind <;> exact .refl _

theorem freesOnly_sellVehicle (i : Uuid) (c : SaleColumns) : (Write.sellVehicle i c).FreesOnly := by
  constructor
  · exact fun db => .refl _
  · intro db u kind
    cases kind with
    | property => exact .refl _
    | vehicle =>
      refine seqs_of_update (fun v => ?_) (fun v => ?_) db.vehicleAssets
      all_goals split <;> rfl

theorem freesOnly_setPropertyEntry (i e : Uuid) : (Write.setPropertyEntry i e).FreesOnly := by
  constructor
  · exact fun db => .refl _
  · intro db u kind
    cases kind with
    | vehicle => exact .refl _
    | property =>
      refine seqs_of_update (fun p => ?_) (fun p => ?_) db.realEstateProperties
      all_goals split <;> rfl

theorem freesOnly_deleteProperty (i : Uuid) : (Write.deleteProperty i).FreesOnly := by
  constructor
  · exact fun db => .refl _
  · intro db u kind
    cases kind with
    | vehicle => exact .refl _
    | property => exact (List.filter_sublist.filter _).filterMap _

end Frees

/-! ## Parts that take no number -/

section Parts
variable (env : Env)

theorem postEntry_frees (input : PostEntryInput) :
    (postEntry env input).WritesOnly Write.FreesOnly :=
  (postEntry_writesOnly env input).mono fun _ => freesOnly_ofEntry

/-- A single write. -/
theorem write_frees {rows : Db → List Row} {ws : Db → List Write}
    (h : ∀ db, ∀ w ∈ ws db, w.FreesOnly) : (Tx.write rows ws : Sql Unit).WritesOnly Write.FreesOnly :=
  fun s => ⟨h s, trivial⟩

theorem freezeRate_frees (f : EntryFxSnapshot) : (freezeRate f).WritesOnly Write.FreesOnly := by
  refine write_frees fun db w hw => ?_
  split at hw
  · cases hw
  · rw [List.mem_singleton.mp hw]
    exact freesOnly_of_tables fun _ => ⟨rfl, rfl, rfl⟩

theorem freezeSale_frees (snapshot : Option EntryFxSnapshot) :
    (freezeSale snapshot).WritesOnly Write.FreesOnly := by
  unfold freezeSale
  split
  · exact freezeRate_frees _
  · trivial

theorem ensureUsdAssetId_frees : (ensureUsdAssetId env).WritesOnly Write.FreesOnly := by
  unfold ensureUsdAssetId
  refine (Tx.readOnly_read _).writesOnly.bind fun found => ?_
  split
  · trivial
  · refine Tx.WritesOnly.bind (write_frees fun db w hw => ?_) fun _ => ?_
    · split at hw
      · cases hw
      · rw [List.mem_singleton.mp hw]
        have husd : ¬ "USD".toList.all Char.isDigit := by decide
        exact freesOnly_insertAsset husd
    · exact ((Tx.readOnly_read _).bind fun _ => Tx.readOnly_ofExcept _).writesOnly

theorem ensureRealEstateLedgerAccounts_frees :
    (ensureRealEstateLedgerAccounts env).WritesOnly Write.FreesOnly :=
  (ensureRealEstateLedgerAccounts_writesOnly env).mono fun _ => freesOnly_addsAccount

theorem removeProperty_frees (prop : RealEstateProperty) :
    (removeProperty prop).WritesOnly Write.FreesOnly := by
  unfold removeProperty
  refine (write_frees fun db w hw => ?_).bind fun _ => ?_
  · rw [List.mem_singleton.mp hw]
    exact freesOnly_deleteProperty _
  refine (write_frees fun db w hw => ?_).bind fun _ => ?_
  · rw [List.mem_singleton.mp hw]
    exact freesOnly_archiveAsset _
  refine write_frees fun db w hw => ?_
  rw [List.mem_singleton.mp hw]
  exact freesOnly_of_tables fun _ => ⟨rfl, rfl, rfl⟩

theorem deleteRealEstateAsset_frees (input : DeleteRealEstateInput) :
    (deleteRealEstateAsset input).WritesOnly Write.FreesOnly := by
  unfold deleteRealEstateAsset
  refine (Tx.readOnly_read _).writesOnly.bind fun row => ?_
  refine (Tx.readOnly_ofExcept _).writesOnly.bind fun found => ?_
  exact (removeProperty_frees _).bind fun _ => trivial

theorem recordRegistryDisposal_frees (cmd : RegistryDisposalCmd) :
    (recordRegistryDisposal env cmd).WritesOnly Write.FreesOnly := by
  unfold recordRegistryDisposal
  refine (Tx.readOnly_require _ _).writesOnly.bind fun _ => ?_
  refine (readOnly_resolveServiceUserId _ _ _).writesOnly.bind fun userId => ?_
  refine (readOnly_carriedPosition _ _).writesOnly.bind fun position => ?_
  refine ((resultLines_writesOnly env cmd _ _).mono fun _ => freesOnly_addsAccount).bind
    fun result => ?_
  refine (postEntry_frees env _).bind fun entry => ?_
  exact (freezeSale_frees _).bind fun _ => trivial

theorem sellVehicle_frees (history : IsoDate → Option DatedRate) (input : SellVehicleInput) :
    (sellVehicle history env input).WritesOnly Write.FreesOnly := by
  unfold sellVehicle
  refine (readOnly_ownVehicle _).writesOnly.bind fun row => ?_
  refine (Tx.readOnly_ofExcept _).writesOnly.bind fun saleDate => ?_
  refine (Tx.readOnly_require _ _).writesOnly.bind fun _ => ?_
  refine (readOnly_vehicleSaleRate _ _ _ _).writesOnly.bind fun rate => ?_
  refine (readOnly_vehiclePayout _).writesOnly.bind fun cash => ?_
  refine Tx.WritesOnly.bind (fun s => ⟨fun w hw => ?_, trivial⟩) fun _ => ?_
  · rw [List.mem_singleton.mp hw]
    exact freesOnly_sellVehicle _ _
  · unfold bookVehicleSale
    split
    · trivial
    · refine (Tx.readOnly_ofExcept _).writesOnly.bind fun cash => ?_
      refine (readOnly_nativeUnitPriceUsd _ _).writesOnly.bind fun unitPriceUsd => ?_
      exact (recordRegistryDisposal_frees env _).bind fun _ => trivial

theorem readOnly_priceProperty (history : IsoDate → Option DatedRate)
    (input : SellRealEstateInput) : (priceProperty history env input).ReadOnly := by
  unfold priceProperty
  refine (readOnly_ownPropertyAsset _).bind fun found => ?_
  refine (Tx.readOnly_ofExcept _).bind fun saleDate => ?_
  refine (Tx.readOnly_require _ _).bind fun _ => ?_
  refine (Tx.readOnly_require _ _).bind fun _ => ?_
  refine (readOnly_propertySaleRate _ _ _ _).bind fun fx => ?_
  refine (Tx.readOnly_require _ _).bind fun _ => ?_
  refine (readOnly_resolvePayoutAccount _ _).bind fun cash => ?_
  exact (Tx.readOnly_ofExcept _).bind fun _ => Tx.readOnly_done _

theorem sellRealEstateAsset_frees (history : IsoDate → Option DatedRate)
    (formatMoney : Decimal → String) (input : SellRealEstateInput) :
    (sellRealEstateAsset history formatMoney env input).WritesOnly Write.FreesOnly := by
  unfold sellRealEstateAsset bookPropertySale
  refine (readOnly_priceProperty _ _ _).writesOnly.bind fun sale => ?_
  refine Tx.WritesOnly.bind ?_ fun _ => trivial
  refine (ensureRealEstateLedgerAccounts_frees env).bind fun accounts => ?_
  refine (ensureUsdAssetId_frees env).bind fun usdAssetId => ?_
  refine (readOnly_nativeUnitPriceUsd _ _).writesOnly.bind fun unitPriceUsd => ?_
  refine ((propertyResultLines_writesOnly env input sale usdAssetId).mono
    fun _ => freesOnly_addsAccount).bind fun result => ?_
  refine (postEntry_frees env _).bind fun posted => ?_
  refine (freezeRate_frees _).bind fun _ => ?_
  exact (removeProperty_frees _).bind fun _ => trivial

variable (rules : RegistryRules)

theorem readOnly_requireTomanBankAccount (accepts : Account → Option Asset → Bool)
    (accountId : Uuid) (userId : Option Uuid) :
    (requireTomanBankAccount accepts accountId userId).ReadOnly := by
  unfold requireTomanBankAccount
  refine (Tx.readOnly_read _).bind fun row => ?_
  refine (Tx.readOnly_ofExcept _).bind fun found => ?_
  exact (Tx.readOnly_require _ _).bind fun _ => Tx.readOnly_done _

theorem payVehicle_frees (input : CreateUserVehicleInput) (t : VehicleTerms) (symbol : String)
    (userSeq : Nat) : (payVehicle rules env input t symbol userSeq).WritesOnly Write.FreesOnly := by
  unfold payVehicle
  split
  · trivial
  · refine (readOnly_requireTomanBankAccount _ _ _).writesOnly.bind fun bank => ?_
    refine ((ensureVehicleAccount_writesOnly _ _ _ _).mono fun _ => freesOnly_addsAccount).bind
      fun account => ?_
    refine (postEntry_frees env _).bind fun entry => Tx.writesOnly_insert fun db w hw => ?_
    rw [List.mem_singleton.mp hw]
    exact freesOnly_of_tables fun _ => ⟨rfl, rfl, rfl⟩

theorem readOnly_payingBank (input : CreateRealEstateAssetInput) :
    (payingBank rules input).ReadOnly := by
  unfold payingBank
  split
  · trivial
  · exact (readOnly_requireTomanBankAccount _ _ _).bind fun _ => Tx.readOnly_done _

theorem insertValuationSnapshot_frees (snapshot : RealEstateValuationSnapshot) :
    (insertValuationSnapshot snapshot).WritesOnly Write.FreesOnly := by
  unfold insertValuationSnapshot
  refine (Tx.readOnly_read _).writesOnly.bind fun existing => ?_
  refine (Tx.readOnly_require _ _).writesOnly.bind fun _ => Tx.writesOnly_insert fun db w hw => ?_
  rw [List.mem_singleton.mp hw]
  exact freesOnly_of_tables fun _ => ⟨rfl, rfl, rfl⟩

theorem postRealEstateOpeningEntry_frees (input : CreateRealEstateAssetInput) (t : PropertyTerms)
    (label symbol : String) (payment : Option TomanBankAccount) :
    (postRealEstateOpeningEntry rules env input t label symbol payment).WritesOnly
      Write.FreesOnly := by
  unfold postRealEstateOpeningEntry
  refine (ensureRealEstateLedgerAccounts_frees env).bind fun accounts => ?_
  refine (ensureUsdAssetId_frees env).bind fun usdAssetId => ?_
  refine (postEntry_frees env _).bind fun result => ?_
  exact (freezeRate_frees _).bind fun _ => trivial

theorem recordCurrentPrice_frees (assetId : Uuid) (valueUsd : Decimal) (date : IsoDate) :
    (recordCurrentPrice assetId valueUsd date).WritesOnly Write.FreesOnly := by
  unfold recordCurrentPrice Tx.when
  split
  · refine write_frees fun db w hw => ?_
    rw [List.mem_singleton.mp hw]
    exact freesOnly_of_tables fun _ => ⟨rfl, rfl, rfl⟩
  · trivial

end Parts

/-! ## What a registration takes -/

theorem frees_all {ws : List Write} (h : ∀ w ∈ ws, w.FreesOnly) (db : Db) :
    (applyAll ws db).occupiedSymbols.Sublist db.occupiedSymbols ∧
      ∀ u kind, ((applyAll ws db).userSeqs u kind).Sublist (db.userSeqs u kind) := by
  induction ws generalizing db with
  | nil => exact ⟨.refl _, fun _ _ => .refl _⟩
  | cons w ws ih =>
    obtain ⟨hw, hws⟩ := List.forall_mem_cons.mp h
    obtain ⟨hsymbols, hseqs⟩ := ih hws (w.apply db)
    exact ⟨hsymbols.trans (hw.symbols db), fun u kind => (hseqs u kind).trans (hw.seqs db u kind)⟩

/-- The writes take one symbol into use, and one number of a user. -/
structure TakesNumbers (kind : RwaKind) (u : Option Uuid) (symbol : String) (seq : Nat)
    (ws : List Write) : Prop where
  symbols : ∀ db : Db, (applyAll ws db).occupiedSymbols.Sublist (db.occupiedSymbols ++ [symbol])
  own : ∀ db : Db, ((applyAll ws db).userSeqs u kind).Sublist (db.userSeqs u kind ++ [seq])
  others : ∀ (db : Db) v other, ¬ (other = kind ∧ v = u) →
    ((applyAll ws db).userSeqs v other).Sublist (db.userSeqs v other)

section TakesNumbers
variable {kind : RwaKind} {u : Option Uuid} {symbol : String} {seq : Nat} {ws vs : List Write}

theorem TakesNumbers.append (h : TakesNumbers kind u symbol seq ws) (hvs : ∀ w ∈ vs, w.FreesOnly) :
    TakesNumbers kind u symbol seq (ws ++ vs) := by
  refine ⟨fun db => ?_, fun db => ?_, fun db v other hne => ?_⟩ <;> rw [applyAll_append]
  · exact (frees_all hvs _).1.trans (h.symbols db)
  · exact ((frees_all hvs _).2 _ _).trans (h.own db)
  · exact ((frees_all hvs _).2 _ _).trans (h.others db v other hne)

theorem map_filter_append_sublist {α β : Type} (p : α → Bool) (g : α → β) (xs : List α) (x : α) :
    (((xs ++ [x]).filter p).map g).Sublist ((xs.filter p).map g ++ [g x]) := by
  rw [List.filter_append, List.map_append]
  exact (List.Sublist.refl _).append (List.filter_sublist.map g)

theorem takes_vehicle (a : Asset) {v : VehicleAsset} {n : Nat} (hn : v.userSeq = some n) :
    TakesNumbers .vehicle v.userId a.symbol n [.insertAsset a, .insertVehicle v] where
  symbols db := map_filter_append_sublist _ _ _ _
  own db := by simp [Db.userSeqs, Writable.apply, Write.apply, List.filter_append, hn]
  others db w other hne := by
    cases other with
    | property => exact .refl _
    | vehicle =>
      have hw : ¬ v.userId = w := fun h => hne ⟨rfl, h.symm⟩
      simp [Db.userSeqs, Writable.apply, Write.apply, List.filter_append, hw]

theorem takes_property (a : Asset) {p : RealEstateProperty} {n : Nat}
    (hn : p.userSeq = some n) :
    TakesNumbers .property p.userId a.symbol n [.insertAsset a, .insertProperty p] where
  symbols db := map_filter_append_sublist _ _ _ _
  own db := by simp [Db.userSeqs, Writable.apply, Write.apply, List.filter_append, hn]
  others db w other hne := by
    cases other with
    | vehicle => exact .refl _
    | property =>
      have hw : ¬ p.userId = w := fun h => hne ⟨rfl, h.symm⟩
      simp [Db.userSeqs, Writable.apply, Write.apply, List.filter_append, hw]

end TakesNumbers

section Bodies
variable (rules : RegistryRules) (env : Env)

/-- A new asset, whatever its symbol is. -/
theorem insertRwaAsset_yields (symbol : String) :
    (insertRwaAsset env symbol).Yields (fun _ ws _ =>
      ws = [.insertAsset { id := env.rwaAssetId, symbol, classCode := "RWA" }]) [] [] := by
  intro db
  simp only
  split
  · rfl
  · trivial

/-- The rest of `registerVehicle`, once the numbers are chosen. -/
def vehicleUnder (input : CreateUserVehicleInput) (t : VehicleTerms) (symbol : String)
    (userSeq : Nat) : Sql CreatedVehicle := do
  insertRwaAsset env symbol
  insertVehicleRow (t.row env input userSeq)
  payVehicle rules env input t symbol userSeq
  pure { id := env.vehicleId, assetId := env.rwaAssetId, symbol, userSeq }

theorem vehicleUnder_yields (input : CreateUserVehicleInput) (t : VehicleTerms) (symbol : String)
    (userSeq : Nat) : (vehicleUnder rules env input t symbol userSeq).Yields
      (fun c ws _ => TakesNumbers .vehicle input.userId symbol userSeq ws ∧
        c.symbol = symbol ∧ c.userSeq = userSeq) [] [] := by
  refine (insertRwaAsset_yields env symbol).bind ?_
  rintro _ _ ks rfl
  have hrow : (insertVehicleRow (t.row env input userSeq)).Yields (fun _ ws _ =>
      ws = [.insertAsset { id := env.rwaAssetId, symbol, classCode := "RWA" },
        .insertVehicle (t.row env input userSeq)])
      [.insertAsset { id := env.rwaAssetId, symbol, classCode := "RWA" }] ks := by
    intro db
    simp only
    split
    · rfl
    · trivial
  refine hrow.bind ?_
  rintro _ _ js rfl
  have htaken := takes_vehicle { id := env.rwaAssetId, symbol, classCode := "RWA" }
    (show (t.row env input userSeq).userSeq = some userSeq from rfl)
  refine ((payVehicle_frees env rules input t symbol userSeq).yields_append).bind ?_
  rintro _ _ ls ⟨us, rfl, hus⟩
  exact ⟨htaken.append hus, rfl, rfl⟩

/-- The rest of `registerProperty`. -/
def propertyUnder (input : CreateRealEstateAssetInput) (t : PropertyTerms)
    (payment : Option TomanBankAccount) (symbol : String) (userSeq : Nat) :
    Sql CreatedProperty := do
  let label := buildRwaLabel .property (some userSeq)
  insertRwaAsset env symbol
  insertPropertyRow (t.row env input userSeq)
  insertValuationSnapshot (t.valuation env input)
  let ledgerEntryId ← postRealEstateOpeningEntry rules env input t label symbol payment
  Tx.write (fun _ => [.property env.propertyId])
    (fun _ => [.setPropertyEntry env.propertyId ledgerEntryId])
  recordCurrentPrice env.rwaAssetId t.currentValueUsd t.valuationDate
  pure { id := env.propertyId, assetId := env.rwaAssetId, symbol, userSeq, label, ledgerEntryId }

theorem propertyUnder_yields (input : CreateRealEstateAssetInput) (t : PropertyTerms)
    (payment : Option TomanBankAccount) (symbol : String) (userSeq : Nat) :
    (propertyUnder rules env input t payment symbol userSeq).Yields
      (fun c ws _ => TakesNumbers .property input.userId symbol userSeq ws ∧
        c.symbol = symbol ∧ c.userSeq = userSeq) [] [] := by
  refine (insertRwaAsset_yields env symbol).bind ?_
  rintro _ _ ks rfl
  have hrow : (insertPropertyRow (t.row env input userSeq)).Yields (fun _ ws _ =>
      ws = [.insertAsset { id := env.rwaAssetId, symbol, classCode := "RWA" },
        .insertProperty (t.row env input userSeq)])
      [.insertAsset { id := env.rwaAssetId, symbol, classCode := "RWA" }] ks := by
    intro db
    simp only
    split
    · rfl
    · trivial
  refine hrow.bind ?_
  rintro _ _ js rfl
  have htaken := takes_property { id := env.rwaAssetId, symbol, classCode := "RWA" }
    (show (t.row env input userSeq).userSeq = some userSeq from rfl)
  refine ((insertValuationSnapshot_frees _).yields_append).bind ?_
  rintro _ _ ls ⟨valued, rfl, hvalued⟩
  refine ((postRealEstateOpeningEntry_frees env rules input t _ symbol payment).yields_append).bind ?_
  rintro entryId _ ls ⟨posted, rfl, hposted⟩
  have hlink : (Tx.write (fun _ => [.property env.propertyId])
      (fun _ => [.setPropertyEntry env.propertyId entryId]) : Sql Unit).WritesOnly
        Write.FreesOnly := by
    refine write_frees fun db w hw => ?_
    rw [List.mem_singleton.mp hw]
    exact freesOnly_setPropertyEntry _ _
  refine hlink.yields_append.bind ?_
  rintro _ _ ls ⟨linked, rfl, hlinked⟩
  refine ((recordCurrentPrice_frees _ _ _).yields_append).bind ?_
  rintro _ _ ls ⟨priced, rfl, hpriced⟩
  exact ⟨(((htaken.append hvalued).append hposted).append hlinked).append hpriced, rfl, rfl⟩

end Bodies

/-! ## Among others -/

/-- Whoever holds the lock of the class sees no further symbol, and whoever holds that of a user no
further number. -/
structure NumbersHeld (ks : List Row) (s t : Db) : Prop where
  symbols : Row.rwaClass ∈ ks → t.occupiedSymbols ⊆ s.occupiedSymbols
  seqs : ∀ kind u, Row.rwaSeq kind u ∈ ks → t.userSeqs u kind ⊆ s.userSeqs u kind

def numberPromise : Promise Db Row Assumption where
  Assumes _ := False
  Inv := Db.NumbersApart
  Rely := NumbersHeld
  refl _ _ := ⟨fun _ => List.Subset.refl _, fun _ _ _ => List.Subset.refl _⟩
  trans h h' := ⟨fun hk => List.Subset.trans (h'.symbols hk) (h.symbols hk),
    fun kind u hk => List.Subset.trans (h'.seqs kind u hk) (h.seqs kind u hk)⟩
  mono hsub h := ⟨fun hk => h.symbols (hsub hk), fun kind u hk => h.seqs kind u (hsub hk)⟩

section Promise
variable {s t : Db} {ws : List Write} {ks : List Row}

theorem commits_of_frees (hs : s.NumbersApart) (h : ∀ w ∈ ws, w.FreesOnly) :
    numberPromise.Commits ws ks s := by
  obtain ⟨hsymbols, hseqs⟩ := frees_all h s
  refine ⟨⟨hs.symbols.sublist hsymbols, fun u kind => (hs.seqs u kind).sublist (hseqs u kind)⟩,
    fun _ _ => ⟨fun _ => hsymbols.subset, fun kind u _ => (hseqs u kind).subset⟩⟩

theorem nodup_append_new {α : Type} {xs ys : List α} {x : α} (h : xs.Nodup) (hx : x ∉ xs)
    (hys : ys.Sublist (xs ++ [x])) : ys.Nodup := by
  refine List.Nodup.sublist hys ?_
  rw [List.nodup_append]
  grind

theorem commits_of_takes {kind : RwaKind} {u : Option Uuid} {symbol : String} {seq : Nat}
    (hs : s.NumbersApart) (h : TakesNumbers kind u symbol seq ws) (hsymbol : symbol ∉ s.occupiedSymbols)
    (hseq : seq ∉ s.userSeqs u kind) (hclass : Row.rwaClass ∈ ks) (huser : Row.rwaSeq kind u ∈ ks) :
    numberPromise.Commits ws ks s := by
  refine ⟨⟨nodup_append_new hs.symbols hsymbol (h.symbols s), fun v other => ?_⟩,
    fun others hothers => ⟨fun hk => absurd hclass (hothers _ hk), fun other v hk => ?_⟩⟩
  · by_cases hown : other = kind ∧ v = u
    · obtain ⟨rfl, rfl⟩ := hown
      exact nodup_append_new (hs.seqs _ _) hseq (h.own s)
    · exact (hs.seqs v other).sublist (h.others s v other hown)
  · have hown : ¬ (other = kind ∧ v = u) := by
      rintro ⟨rfl, rfl⟩
      exact hothers _ hk huser
    exact (h.others s v other hown).subset

/-- Under its locks a registration takes numbers that are still free when it commits. -/
theorem numbered_ok {α : Type} {kind : RwaKind} {u : Option Uuid} {body : String → Nat → Sql α}
    {R : String → Nat → α → Prop} (hbody : ∀ symbol seq, (body symbol seq).Yields
      (fun a ws _ => TakesNumbers kind u symbol seq ws ∧ R symbol seq a) [] []) :
    numberPromise.Ok (fun _ ws ks t => numberPromise.Commits ws ks t) (do
      let symbol ← nextRwaSymbol
      let seq ← nextUserRwaSeq kind u
      body symbol seq : Sql α) [] [] s := by
  unfold nextRwaSymbol nextUserRwaSeq
  simp only [Tx.bind_assoc, Tx.pure_eq, Tx.done_bind]
  refine .bind (.lock fun _ _ _ t₁ _ _ => ?_)
  refine .bind (.read fun t₂ _ _ t₃ _ h₃ => ?_)
  refine .bind (.lock fun t₄ _ h₄ t₅ _ h₅ => ?_)
  refine .bind (.read fun t₆ _ h₆ t₇ _ h₇ => ?_)
  refine .yields (hbody _ _) ?_
  rintro a ws js t ht hr ⟨htakes, -⟩
  have hclass : Row.rwaClass ∈ [] ++ [Row.rwaClass] ++ [Row.rwaSeq kind u] := by simp
  have hsymbols : t.occupiedSymbols ⊆ t₂.occupiedSymbols := by
    have h₅ := h₅.symbols hclass
    have h₆ := h₆.symbols hclass
    have h₇ := h₇.symbols hclass
    have hr := hr.symbols hclass
    have h₃ := h₃.symbols (by simp)
    have h₄ := h₄.symbols (by simp)
    exact fun x hx => h₃ (h₄ (h₅ (h₆ (h₇ (hr hx)))))
  have huser : Row.rwaSeq kind u ∈ [] ++ [Row.rwaClass] ++ [Row.rwaSeq kind u] := by simp
  have hseqs : t.userSeqs u kind ⊆ t₆.userSeqs u kind :=
    fun x hx => h₇.seqs kind u huser (hr.seqs kind u huser hx)
  refine commits_of_takes ht htakes ?_ ?_ (List.mem_append_left _ hclass)
    (List.mem_append_left _ huser)
  · exact fun hx => (firstFree_unused buildRwaSymbol_injective _).1.2 (hsymbols hx)
  · exact fun hx => (firstFree_unused Function.injective_id _).1.2 (hseqs hx)

theorem frees_ok {α : Type} {p : Sql α} (h : p.WritesOnly Write.FreesOnly) :
    numberPromise.Ok (fun _ ws ks t => numberPromise.Commits ws ks t) p [] [] s := by
  refine .yields (h.yields (by simp)) ?_
  exact fun _ ws ks t ht _ hws => commits_of_frees ht hws

theorem createUserVehicle_commits (rules : RegistryRules) (env : Env)
    (input : CreateUserVehicleInput) :
    numberPromise.Ok (fun _ ws ks t => numberPromise.Commits ws ks t)
      (createUserVehicle rules env input) [] [] s := by
  unfold createUserVehicle
  refine .bind (.of_readOnly (readOnly_vehicleTerms _ _ _) fun t _ _ _ => ?_)
  exact numbered_ok (vehicleUnder_yields rules env input t)

theorem createRealEstateAsset_commits (rules : RegistryRules) (env : Env)
    (input : CreateRealEstateAssetInput) :
    numberPromise.Ok (fun _ ws ks t => numberPromise.Commits ws ks t)
      (createRealEstateAsset rules env input) [] [] s := by
  unfold createRealEstateAsset
  refine .bind (.of_readOnly (readOnly_propertyTerms _ _ _) fun t _ _ _ => ?_)
  refine .bind (.of_readOnly (readOnly_payingBank _ _) fun payment _ _ _ => ?_)
  exact numbered_ok (propertyUnder_yields rules env input t payment)

end Promise

/-! ## Requests -/

/-- The numbers a registration was given. -/
structure GivenNumbers where
  kind : RwaKind
  userId : Option Uuid
  symbol : String
  userSeq : Nat
  deriving DecidableEq, Repr

inductive RegistryRequest where
  | createVehicle (rules : RegistryRules) (env : Env) (input : CreateUserVehicleInput)
  | createProperty (rules : RegistryRules) (env : Env) (input : CreateRealEstateAssetInput)
  | sellVehicle (history : IsoDate → Option DatedRate) (env : Env) (input : SellVehicleInput)
  | sellProperty (history : IsoDate → Option DatedRate) (formatMoney : Decimal → String)
      (env : Env) (input : SellRealEstateInput)
  | deleteProperty (input : DeleteRealEstateInput)

/-- The transaction, with the numbers it gives. -/
def RegistryRequest.tx : RegistryRequest → Sql (Option GivenNumbers)
  | .createVehicle rules env input => do
    let c ← createUserVehicle rules env input
    pure (some ⟨.vehicle, input.userId, c.symbol, c.userSeq⟩)
  | .createProperty rules env input => do
    let c ← createRealEstateAsset rules env input
    pure (some ⟨.property, input.userId, c.symbol, c.userSeq⟩)
  | .sellVehicle history env input => do
    let _ ← Pwos.sellVehicle history env input
    pure none
  | .sellProperty history formatMoney env input => do
    let _ ← sellRealEstateAsset history formatMoney env input
    pure none
  | .deleteProperty input => do
    let _ ← deleteRealEstateAsset input
    pure none

theorem RegistryRequest.honours (request : RegistryRequest) :
    numberPromise.Honours (fun _ _ _ _ => True) request.tx := by
  intro s _
  have hmap : ∀ {α : Type} {p : Sql α} (f : α → Option GivenNumbers),
      numberPromise.Ok (fun _ ws ks t => numberPromise.Commits ws ks t) p [] [] s →
      numberPromise.Ok (fun _ ws ks t => numberPromise.Commits ws ks t ∧ True)
        (p >>= fun a => pure (f a)) [] [] s :=
    fun f h => .map (h.mono fun _ _ _ _ _ hc => ⟨hc, trivial⟩)
  cases request with
  | createVehicle rules env input => exact hmap _ (createUserVehicle_commits rules env input)
  | createProperty rules env input => exact hmap _ (createRealEstateAsset_commits rules env input)
  | sellVehicle history env input => exact hmap _ (frees_ok (sellVehicle_frees env history input))
  | sellProperty history formatMoney env input =>
    exact hmap _ (frees_ok (sellRealEstateAsset_frees env history formatMoney input))
  | deleteProperty input => exact hmap _ (frees_ok (deleteRealEstateAsset_frees input))

/-! ## The moment a number is chosen -/

section Moment
variable {ρ : Type}

/-- The session is about to read the symbols, with the lock of the class in its hands, and the
symbol is the first that is free. -/
def ChoosesSymbol (g : GivenNumbers) (x : Session Db Write Row Assumption AppError ρ) (db : Db) :
    Prop :=
  (∃ k, x.prog = (Tx.read (·.occupiedSymbols) >>= k)) ∧ Row.rwaClass ∈ x.held ∧
    ∃ n, IsLeast {m | 1 ≤ m ∧ buildRwaSymbol m ∉ db.occupiedSymbols} n ∧
      g.symbol = buildRwaSymbol n

/-- The same of the number of a user. -/
def ChoosesSeq (g : GivenNumbers) (x : Session Db Write Row Assumption AppError ρ) (db : Db) :
    Prop :=
  (∃ k, x.prog = (Tx.read (·.userSeqs g.userId g.kind) >>= k)) ∧
    Row.rwaSeq g.kind g.userId ∈ x.held ∧
    IsLeast {m | 1 ≤ m ∧ m ∉ db.userSeqs g.userId g.kind} g.userSeq

end Moment

/-- What every path ends in. -/
theorem yields_gives {α : Type} {p : Sql α} {R : α → List Write → List Row → Prop}
    {V : Db → Prop} {vs : List Write} {js : List Row} (h : p.Yields R vs js) {a : α}
    (ha : p.Gives V a) : ∃ ws ks, R a ws ks := by
  induction p generalizing vs js with
  | done b =>
    cases ha
    exact ⟨_, _, h⟩
  | fail e => exact ha.elim
  | stmt l x w n ih =>
    obtain ⟨s, -, ha⟩ := ha
    exact ih s (h s) ha

section Sees
variable {α : Type} {kind : RwaKind} {u : Option Uuid} {body : String → Nat → Sql α}
  {give : α → Option GivenNumbers}

theorem sees_symbol (hbody : ∀ symbol seq a, (body symbol seq).Gives (fun _ => True) a →
      give a = some ⟨kind, u, symbol, seq⟩) :
    (do
      let symbol ← nextRwaSymbol
      let seq ← nextUserRwaSeq kind u
      let a ← body symbol seq
      pure (give a) : Sql (Option GivenNumbers)).Sees (· = none)
        (fun r x db => ∀ g ∈ r, ChoosesSymbol g x db) [] [] := by
  unfold nextRwaSymbol nextUserRwaSeq
  simp only [Tx.bind_assoc, Tx.pure_eq, Tx.done_bind]
  refine .lock_bind fun _ => .read_bind fun t r hgives g hg => ⟨⟨_, rfl⟩, by simp, ?_⟩
  simp only [Tx.gives_bind, Tx.gives_done] at hgives
  obtain ⟨_, _, _, _, a, ha, rfl⟩ := hgives
  rw [hbody _ _ a ha] at hg
  cases hg
  exact ⟨_, firstFree_unused buildRwaSymbol_injective _, rfl⟩

theorem sees_seq (hbody : ∀ symbol seq a, (body symbol seq).Gives (fun _ => True) a →
      give a = some ⟨kind, u, symbol, seq⟩) :
    (do
      let symbol ← nextRwaSymbol
      let seq ← nextUserRwaSeq kind u
      let a ← body symbol seq
      pure (give a) : Sql (Option GivenNumbers)).Sees (· = none)
        (fun r x db => ∀ g ∈ r, ChoosesSeq g x db) [] [] := by
  unfold nextRwaSymbol nextUserRwaSeq
  simp only [Tx.bind_assoc, Tx.pure_eq, Tx.done_bind]
  refine .lock_bind fun _ t => .inr ?_
  refine .lock_bind fun _ => .read_bind fun t r hgives g hg => ?_
  simp only [Tx.gives_bind, Tx.gives_done] at hgives
  obtain ⟨a, ha, rfl⟩ := hgives
  rw [hbody _ _ a ha] at hg
  cases hg
  exact ⟨⟨_, rfl⟩, by simp, firstFree_unused Function.injective_id _⟩

end Sees

/-- What a registration answers with are the numbers it chose. -/
theorem given_under {α : Type} {kind : RwaKind} {u : Option Uuid} {symbol : String} {seq : Nat}
    {p : Sql α} {symbolOf : α → String} {seqOf : α → Nat} (h : p.Yields (fun a ws _ =>
      TakesNumbers kind u symbol seq ws ∧ symbolOf a = symbol ∧ seqOf a = seq) [] []) {a : α}
    (ha : p.Gives (fun _ => True) a) :
    some (GivenNumbers.mk kind u (symbolOf a) (seqOf a)) = some ⟨kind, u, symbol, seq⟩ := by
  obtain ⟨_, _, -, hsymbol, hseq⟩ := yields_gives h ha
  rw [hsymbol, hseq]

namespace RegistryRequest

theorem plain_none {α : Type} {p : Sql α}
    {seen : Option GivenNumbers → Session Db Write Row Assumption AppError _ → Db → Prop} :
    (p >>= fun _ => pure none).Sees (· = none) seen [] [] := by
  refine .of_plain fun a ha => ?_
  obtain ⟨_, -, ha⟩ := Tx.gives_bind.mp ha
  exact ha.symm

theorem tx_createVehicle (rules : RegistryRules) (env : Env) (input : CreateUserVehicleInput) :
    (createVehicle rules env input).tx = (do
      let t ← vehicleTerms rules env input
      let symbol ← nextRwaSymbol
      let seq ← nextUserRwaSeq .vehicle input.userId
      let c ← vehicleUnder rules env input t symbol seq
      pure (some ⟨.vehicle, input.userId, c.symbol, c.userSeq⟩)) := by
  simp only [tx, createUserVehicle, registerVehicle, vehicleUnder, Tx.bind_assoc]

theorem tx_createProperty (rules : RegistryRules) (env : Env)
    (input : CreateRealEstateAssetInput) :
    (createProperty rules env input).tx = (do
      let t ← propertyTerms rules env input
      let payment ← payingBank rules input
      let symbol ← nextRwaSymbol
      let seq ← nextUserRwaSeq .property input.userId
      let c ← propertyUnder rules env input t payment symbol seq
      pure (some ⟨.property, input.userId, c.symbol, c.userSeq⟩)) := by
  simp only [tx, createRealEstateAsset, registerProperty, propertyUnder, Tx.bind_assoc]

theorem seesSymbol (request : RegistryRequest) :
    request.tx.Sees (· = none) (fun r x db => ∀ g ∈ r, ChoosesSymbol g x db) [] [] := by
  cases request with
  | createVehicle rules env input =>
    rw [tx_createVehicle]
    refine .readOnly_bind (readOnly_vehicleTerms _ _ _) fun t => ?_
    exact sees_symbol fun symbol seq c h => given_under (vehicleUnder_yields rules env input t _ _) h
  | createProperty rules env input =>
    rw [tx_createProperty]
    refine .readOnly_bind (readOnly_propertyTerms _ _ _) fun t => ?_
    refine .readOnly_bind (readOnly_payingBank _ _) fun payment => ?_
    exact sees_symbol fun symbol seq c h =>
      given_under (propertyUnder_yields rules env input t payment _ _) h
  | sellVehicle history env input => exact plain_none
  | sellProperty history formatMoney env input => exact plain_none
  | deleteProperty input => exact plain_none

theorem seesSeq (request : RegistryRequest) :
    request.tx.Sees (· = none) (fun r x db => ∀ g ∈ r, ChoosesSeq g x db) [] [] := by
  cases request with
  | createVehicle rules env input =>
    rw [tx_createVehicle]
    refine .readOnly_bind (readOnly_vehicleTerms _ _ _) fun t => ?_
    exact sees_seq fun symbol seq c h => given_under (vehicleUnder_yields rules env input t _ _) h
  | createProperty rules env input =>
    rw [tx_createProperty]
    refine .readOnly_bind (readOnly_propertyTerms _ _ _) fun t => ?_
    refine .readOnly_bind (readOnly_payingBank _ _) fun payment => ?_
    exact sees_seq fun symbol seq c h =>
      given_under (propertyUnder_yields rules env input t payment _ _) h
  | sellVehicle history env input => exact plain_none
  | sellProperty history formatMoney env input => exact plain_none
  | deleteProperty input => exact plain_none

/-- The program is that of a request. -/
def Runs (p : Sql (Option GivenNumbers)) : Prop := ∃ request : RegistryRequest, p = request.tx

end RegistryRequest

/-- Whatever runs at once, the numbers stay apart, and what a registration commits are the first
numbers that were free at the moments it looked, under the locks. -/
theorem numbers_of_registrations {db : Db} (h : db.NumbersApart)
    {c : System Db Write Row Assumption AppError (Option GivenNumbers)}
    {past : List (System Db Write Row Assumption AppError (Option GivenNumbers))}
    (hrun : System.History RegistryRequest.Runs (fun _ => False) db (c :: past)) :
    c.committed.NumbersApart ∧ ∀ i g ws ks, c.sessions i = some ⟨.done (some g), ws, ks⟩ →
      System.Passed past i (ChoosesSymbol g) ∧ System.Passed past i (ChoosesSeq g) := by
  have hp : ∀ p, RegistryRequest.Runs p → numberPromise.Honours (fun _ _ _ _ => True) p := by
    rintro p ⟨request, rfl⟩
    exact request.honours
  refine ⟨(System.Reaches.safe h hp hrun.reaches).inv, fun i g ws ks hi => ⟨?_, ?_⟩⟩
  · have hsees : ∀ p, RegistryRequest.Runs p →
        p.Sees (· = none) (fun r x db => ∀ g ∈ r, ChoosesSymbol g x db) [] [] := by
      rintro p ⟨request, rfl⟩
      exact request.seesSymbol
    rcases hrun.passed hsees hi with hnone | hpassed
    · cases hnone
    · exact hpassed.mono fun x t hx => hx g rfl
  · have hsees : ∀ p, RegistryRequest.Runs p →
        p.Sees (· = none) (fun r x db => ∀ g ∈ r, ChoosesSeq g x db) [] [] := by
      rintro p ⟨request, rfl⟩
      exact request.seesSeq
    rcases hrun.passed hsees hi with hnone | hpassed
    · cases hnone
    · exact hpassed.mono fun x t hx => hx g rfl

/-! ## A home is deleted while a car is registered -/

def homeRequest : RegistryRequest :=
  .createProperty homeRules
    { entryId := 1, today := 20260501, propertyId := 5, rwaAssetId := 9,
      accountIds := fun n => 20 + n }
    { cityId := some 1, neighborhoodId := some 1, propertyTypeId := some 1
      acquisitionDate := some 20260501, valuationDate := some 20260501
      purchasePriceToman := .ofInt 5000000, currentValueToman := .ofInt 5000000
      valuationFxRate := some (.ofInt 100000)
      sizeSqm := .ofInt 80, userId := some 1 }

def carRequest : RegistryRequest :=
  .createVehicle { homeRules with catalogModel := fun id => some ⟨id, "پژو", "۲۰۶"⟩ }
    { entryId := 3, today := 20260501, vehicleId := 6, rwaAssetId := 10 }
    { catalogId := some 1, manufacturingYear := 1400, ownershipDate := some 20260501
      purchasePriceToman := .ofInt 900000000, userId := some 1 }

def deleteRequest : RegistryRequest := .deleteProperty { propertyId := 5, userId := some 1 }

/-- The home is registered. The car takes the lock of the class, the home is deleted, and the car
looks for its numbers. -/
def deletedMeanwhile : List (Move Db Write Row Assumption AppError (Option GivenNumbers)) :=
  [Move.begin 0 homeRequest.tx] ++ List.replicate 22 (Move.go 0) ++
    [Move.commit 0, Move.begin 1 deleteRequest.tx, Move.begin 0 carRequest.tx] ++
    List.replicate 2 (Move.go 0) ++ List.replicate 4 (Move.go 1) ++
    Move.commit 1 :: List.replicate 5 (Move.go 0)

theorem numbersApart_demoHome : demoHome.NumbersApart := by
  refine ⟨by decide, fun u kind => ?_⟩
  cases kind <;> exact List.nodup_nil

theorem deletedMeanwhile_history {all : List (Board Db Write Row Assumption AppError _)}
    (h : Board.record [] (.idle 2 demoHome) deletedMeanwhile = some all) :
    System.History RegistryRequest.Runs (fun _ => False) demoHome (all.map Board.toSystem) := by
  refine Board.record_idle ?_ h
  have hbegun : Board.begun deletedMeanwhile = [homeRequest.tx, deleteRequest.tx, carRequest.tx] :=
    rfl
  simp only [hbegun, List.mem_cons, List.not_mem_nil, or_false]
  rintro p (rfl | rfl | rfl) <;> exact ⟨_, rfl⟩

/-- The symbol a session is about to commit. -/
def committing (x : Session Db Write Row Assumption AppError (Option GivenNumbers)) :
    Option GivenNumbers :=
  match x.prog with
  | .done g => g
  | _ => none

theorem done_of_committing {x : Session Db Write Row Assumption AppError (Option GivenNumbers)}
    {g : GivenNumbers} (h : committing x = some g) : x.prog = .done (some g) := by
  unfold committing at h
  split at h
  · rename_i hx
    rw [hx, h]
  · cases h

theorem numbers_of_car : ∃ c past z g,
    System.History RegistryRequest.Runs (fun _ => False) demoHome (c :: past) ∧
      c.sessions 0 = some z ∧ z.prog = .done (some g) ∧ g.symbol = "001" ∧ g.userSeq = 1 ∧
      c.committed.NumbersApart ∧ System.Passed past 0 (ChoosesSymbol g) ∧
      System.Passed past 0 (ChoosesSeq g) := by
  have hcheck : (Board.record [] (.idle 2 demoHome) deletedMeanwhile).any (fun all =>
      all.head?.any fun c => c.sessions[0]?.join.any fun z => (committing z).any fun g =>
        decide (g.symbol = "001" ∧ g.userSeq = 1)) = true := by decide
  obtain ⟨all, hall, hcheck⟩ := exists_of_any hcheck
  obtain ⟨c, hc, hcheck⟩ := exists_of_any hcheck
  obtain ⟨⟨prog, ws, ks⟩, hz, hcheck⟩ := exists_of_any hcheck
  obtain ⟨g, hg, hcheck⟩ := exists_of_any hcheck
  obtain ⟨hsymbol, hseq⟩ := of_decide_eq_true hcheck
  obtain ⟨past, rfl⟩ := List.head?_eq_some_iff.mp hc
  obtain rfl : prog = .done (some g) := done_of_committing hg
  have hrun := deletedMeanwhile_history hall
  have hnumbers := numbers_of_registrations numbersApart_demoHome hrun
  exact ⟨_, _, _, g, hrun, hz, rfl, hsymbol, hseq, hnumbers.1, hnumbers.2 0 g ws ks hz⟩

/-- The car took the lock while the home had the first number, and it commits that number. -/
theorem smaller_number_freed :
    ∃ all : List (System Db Write Row Assumption AppError (Option GivenNumbers)),
      System.History RegistryRequest.Runs (fun _ => False) demoHome all ∧
      (∀ c ∈ all.take 12, (c.sessions 0).isSome) ∧ ∃ c d e x y z g, all[0]? = some c ∧
        all[10]? = some d ∧ all[11]? = some e ∧ e.sessions 0 = some x ∧ Row.rwaClass ∉ x.held ∧
        d.sessions 0 = some y ∧ Row.rwaClass ∈ y.held ∧
        c.sessions 0 = some z ∧ z.prog = .done (some g) ∧
        ¬ ∃ n, IsLeast {m | 1 ≤ m ∧ buildRwaSymbol m ∉ d.committed.occupiedSymbols} n ∧
          g.symbol = buildRwaSymbol n := by
  have hcheck : (Board.record [] (.idle 2 demoHome) deletedMeanwhile).any (fun all =>
      (all.take 12).all (fun b => b.sessions[0]?.join.isSome) && all[0]?.any fun c =>
      all[10]?.any fun d => all[11]?.any fun e => c.sessions[0]?.join.any fun z =>
      d.sessions[0]?.join.any fun y => e.sessions[0]?.join.any fun x =>
      (committing z).any fun g => decide (Row.rwaClass ∉ x.held ∧ Row.rwaClass ∈ y.held ∧
        g.symbol ∈ d.committed.occupiedSymbols)) = true := by decide
  obtain ⟨all, hall, hcheck⟩ := exists_of_any hcheck
  obtain ⟨hflight, hcheck⟩ := Bool.and_eq_true_iff.mp hcheck
  obtain ⟨c, hc, hcheck⟩ := exists_of_any hcheck
  obtain ⟨d, hd, hcheck⟩ := exists_of_any hcheck
  obtain ⟨e, he, hcheck⟩ := exists_of_any hcheck
  obtain ⟨z, hz, hcheck⟩ := exists_of_any hcheck
  obtain ⟨y, hy, hcheck⟩ := exists_of_any hcheck
  obtain ⟨x, hx, hcheck⟩ := exists_of_any hcheck
  obtain ⟨g, hg, hcheck⟩ := exists_of_any hcheck
  obtain ⟨hbefore, hafter, htaken⟩ := of_decide_eq_true hcheck
  refine ⟨all.map Board.toSystem, deletedMeanwhile_history hall, ?_, c.toSystem, d.toSystem,
    e.toSystem, x, y, z, g, ?_, ?_, ?_, hx, hbefore, hy, hafter, hz, done_of_committing hg, ?_⟩
  · intro s hs
    rw [← List.map_take] at hs
    obtain ⟨b, hb, rfl⟩ := List.mem_map.mp hs
    exact List.all_eq_true.mp hflight b hb
  · rw [List.getElem?_map, hc, Option.map_some]
  · rw [List.getElem?_map, hd, Option.map_some]
  · rw [List.getElem?_map, he, Option.map_some]
  · rintro ⟨n, hn, hsymbol⟩
    exact hn.1.2 (hsymbol ▸ htaken)

end Pwos

import Pwos.Domain.Accounting
import Pwos.Domain.Decimal
import Pwos.Lib.CodeUnits
import Pwos.Lib.Fenced
import Pwos.Search.SearchText

/-!
# The catalogue of tracked prices

Categories, items and price records of `features/commodities/service.ts`. A row belongs to a tenant,
or to everybody where it has no owner. A category or an item is looked up by its name first, and
looked up again where its insert is refused because someone else was faster. The tracker of
`features/inflation/service.ts` makes all three in one call, and seeds shared categories. However
the calls of all tenants interleave, names stay unique, nobody's rows refer to another's, and a lost
race is never an error (`catalog_sound`).

Amounts and dates come parsed: `none` is what could not be read.
-/

namespace Pwos

namespace PriceCatalog

/-! ## The tables -/

/-- A category, and what an item has in common with it. -/
structure CatalogRow where
  id : Uuid
  userId : Option Uuid
  name : String
  deriving DecidableEq

structure CommodityItem extends CatalogRow where
  categoryId : Option Uuid
  defaultUnit : String
  deriving DecidableEq

structure PriceRecord where
  id : Uuid
  userId : Option Uuid
  commodityId : Uuid
  unitPrice : Decimal
  unit : String
  quantity : Decimal
  totalAmount : Decimal
  purchasedAt : Nat
  merchantName : Option String
  region : Option String
  notes : Option String
  deriving DecidableEq

structure CatalogWorld where
  categories : List CatalogRow := []
  items : List CommodityItem := []
  records : List PriceRecord := []
  now : Nat := 0

inductive CatalogWrite where
  | insertCategory (row : CatalogRow)
  | insertItem (row : CommodityItem)
  | insertRecord (row : PriceRecord)

def CatalogWrite.apply : CatalogWrite → CatalogWorld → CatalogWorld
  | .insertCategory row, w => { w with categories := w.categories ++ [row] }
  | .insertItem row, w => { w with items := w.items ++ [row] }
  | .insertRecord row, w => { w with records := w.records ++ [row] }

instance : Writable CatalogWorld CatalogWrite := ⟨CatalogWrite.apply⟩

def CatalogWorld.itemRows (w : CatalogWorld) : List CatalogRow :=
  w.items.map CommodityItem.toCatalogRow

/-- The assumption that an id is drawn for the first time. -/
inductive Drawn where
  | fresh

abbrev CatalogRun := Process CatalogWorld CatalogWrite Empty Drawn

/-- The tenant's own rows and everybody's. -/
def visibleTo (owner : Option Uuid) (r : CatalogRow) : Bool :=
  r.userId = owner || r.userId = none

def findVisible (rows : List CatalogRow) (name : String) (owner : Option Uuid) :
    Option CatalogRow :=
  rows.find? fun r => r.name = name && visibleTo owner r

/-- The unique index refuses the row. -/
def taken (rows : List CatalogRow) (row : CatalogRow) : Bool :=
  rows.any fun r => r.userId = row.userId && r.name = row.name

/-! ## The calls -/

def trimmed (s : String) : String := String.ofList (trim s.toList)

def unitLength (s : String) : Nat := (codeUnits s).length

def sliceTo (n : Nat) (s : String) : String := fromUnits ((codeUnits s).take n)

inductive CatalogFailure where
  | categoryRequired | categoryTooLong | categoryLimit (most : Int) | categoryFailed
  | itemRequired | itemTooLong | categoryNotFound (id : Uuid) | categoryNotAccessible | itemFailed
  | itemNotFound (id : Uuid) | invalid (field : String) | notPositive (field : String)
  | invalidDate | priceNotPositive | nameRequired | nameTooLong | dateNotValid
  deriving DecidableEq, Repr

def CatalogFailure.message : CatalogFailure → String
  | .categoryRequired => "Category name is required"
  | .categoryTooLong => "Category name too long (max 100 chars)"
  | .categoryLimit most => "Maximum categories limit (" ++ toString most ++ ") reached"
  | .categoryFailed => "Failed to create category"
  | .itemRequired => "Commodity item name is required"
  | .itemTooLong => "Commodity item name too long (max 200 chars)"
  | .categoryNotFound id => "Category not found: " ++ toString id
  | .categoryNotAccessible => "Category is not accessible"
  | .itemFailed => "Failed to create commodity item"
  | .itemNotFound id => "Commodity item not found: " ++ toString id
  | .invalid field => "Invalid " ++ field ++ " format"
  | .notPositive field => field ++ " must be greater than zero"
  | .invalidDate => "Invalid purchasedAt date"
  | .priceNotPositive => "قیمت هر واحد باید بزرگ‌تر از صفر باشد."
  | .nameRequired => "نام کالا الزامی است."
  | .nameTooLong => "نام کالا بیش از حد طولانی است."
  | .dateNotValid => "تاریخ ثبت قیمت معتبر نیست."

abbrev Answer := Except CatalogFailure Uuid

/-- A name without the blanks around it, of one unit to `most`. -/
def checkName (most : Nat) (required tooLong : CatalogFailure) (name : String) :
    Except CatalogFailure String :=
  if trim name.toList = [] then .error required
  else if most < unitLength (trimmed name) then .error tooLong
  else .ok (trimmed name)

/-- What categories and items do alike. -/
def findOrCreate (rows : CatalogWorld → List CatalogRow) (insert : CatalogWrite) (row : CatalogRow)
    (failure : CatalogFailure) : CatalogRun Answer := do
  let existing ← Process.look fun w => findVisible (rows w) row.name row.userId
  match existing with
  | some r => pure (.ok r.id)
  | none => do
    let refused ← (.auto (fun _ => []) (fun _ w => row.id ∉ (rows w).map (·.id))
      (fun w => if taken (rows w) row then [] else [insert])
      fun w => .done (taken (rows w) row) : CatalogRun Bool)
    if !refused then pure (.ok row.id)
    else do
      let retry ← Process.look fun w => findVisible (rows w) row.name row.userId
      match retry with
      | some r => pure (.ok r.id)
      | none => pure (.error failure)

/-- `maxCategories` is the limit from the environment. -/
def createCategory (maxCategories : Option Int) (name : String) (owner : Option Uuid) (id : Uuid) :
    CatalogRun Answer :=
  match checkName 100 .categoryRequired .categoryTooLong name with
  | .error e => pure (.error e)
  | .ok trimmed => do
    let count ← Process.look fun w => (w.categories.length : Int)
    match maxCategories.filter fun n => n ≠ 0 && n ≤ count with
    | some n => pure (.error (.categoryLimit n))
    | none =>
      let row : CatalogRow := ⟨id, owner, trimmed⟩
      findOrCreate (·.categories) (.insertCategory row) row .categoryFailed

def cleanUnit (defaultUnit : Option String) : String :=
  let unit := sliceTo 50 (trimmed ((defaultUnit.filter (· ≠ "")).getD "piece"))
  if unit = "" then "piece" else unit

/-- The category is there and may be used. -/
def checkCategory (owner : Option Uuid) (categoryId : Option Uuid) :
    CatalogRun (Except CatalogFailure Unit) :=
  match categoryId with
  | none => pure (.ok ())
  | some c => do
    let cat ← Process.look fun w => w.categories.find? (·.id = c)
    match cat with
    | none => pure (.error (.categoryNotFound c))
    | some cat =>
      if cat.userId.any fun u => some u ≠ owner then pure (.error .categoryNotAccessible)
      else pure (.ok ())

def createCommodityItem (name : String) (categoryId : Option Uuid) (defaultUnit : Option String)
    (owner : Option Uuid) (id : Uuid) : CatalogRun Answer :=
  match checkName 200 .itemRequired .itemTooLong name with
  | .error e => pure (.error e)
  | .ok trimmedName => (checkCategory owner categoryId).andThen fun _ =>
    let row : CommodityItem :=
      { id, userId := owner, name := trimmedName, categoryId, defaultUnit := cleanUnit defaultUnit }
    findOrCreate (·.itemRows) (.insertItem row) row.toCatalogRow .itemFailed

structure PriceRecordData where
  commodityId : Uuid
  unitPrice : Option Decimal
  unit : Option String
  quantity : Option (Option Decimal)
  totalAmount : Option (Option Decimal)
  purchasedAt : Option (Option Nat)
  merchantName : Option String
  region : Option String
  notes : Option String

/-- An amount that was read, and is greater than zero. -/
def positiveAmount (field : String) (amount : Option Decimal) : Except CatalogFailure Decimal :=
  match amount with
  | none => .error (.invalid field)
  | some d => if 0 < d.raw then .ok d else .error (.notPositive field)

/-- A text column of at most `n` units, or nothing. -/
def cleanText (n : Nat) (text : Option String) : Option String :=
  (text.map fun t => sliceTo n (trimmed t)).filter (· ≠ "")

/-- `total_amount`, or the product. -/
def totalOf (unitPrice quantity : Decimal) : Option (Option Decimal) → Except CatalogFailure Decimal
  | some total => positiveAmount "totalAmount" total
  | none => .ok (unitPrice.mul quantity)

/-- The row of an observation of `commodity`. -/
def priceRecord (data : PriceRecordData) (commodity : CommodityItem) (owner : Option Uuid)
    (now : Nat) (id : Uuid) : Except CatalogFailure PriceRecord := do
  let unitPrice ← positiveAmount "unitPrice" data.unitPrice
  let quantity ← positiveAmount "quantity" (data.quantity.getD (some (Decimal.ofInt 1)))
  let totalAmount ← totalOf unitPrice quantity data.totalAmount
  let purchasedAt ← ((data.purchasedAt.getD (some now)).elim (.error .invalidDate) .ok :
    Except CatalogFailure Nat)
  let unit := (data.unit.filter (· ≠ "")).getD
    (if commodity.defaultUnit = "" then "piece" else commodity.defaultUnit)
  .ok { id, userId := owner, commodityId := data.commodityId, unitPrice
        unit := sliceTo 50 (trimmed unit), quantity, totalAmount, purchasedAt
        merchantName := cleanText 200 data.merchantName, region := cleanText 200 data.region
        notes := cleanText 1000 data.notes }

def recordPricePoint (data : PriceRecordData) (owner : Option Uuid) (id : Uuid) :
    CatalogRun Answer := do
  let commodity ← Process.look fun w =>
    w.items.find? fun i => i.id = data.commodityId && visibleTo owner i.toCatalogRow
  match commodity with
  | none => pure (.error (.itemNotFound data.commodityId))
  | some commodity => do
    let now ← Process.look (·.now)
    match priceRecord data commodity owner now id with
    | .error e => pure (.error e)
    | .ok row =>
      .auto (fun _ => []) (fun _ w => row.id ∉ w.records.map (·.id))
        (fun _ => [.insertRecord row]) fun _ => .done (.ok row.id)

/-! ## The tracker -/

def INFLATION_DEFAULT_UNIT : String := "عدد"

def INFLATION_CATEGORY_SUGGESTIONS : List String :=
  ["مواد غذایی", "پروتئین", "لبنیات", "حبوبات", "نان و غلات", "روغن", "شوینده و بهداشتی",
    "میوه و سبزیجات", "نوشیدنی و تنقلات", "مسکن و اجاره", "قبوض و انرژی", "حمل‌ونقل",
    "سوخت و نگهداری خودرو", "درمان و دارو", "پوشاک و کفش", "لوازم خانه", "آموزش",
    "ارتباطات و اینترنت", "تفریح و سفر", "خدمات و تعمیرات", "کودک و خانواده", "حیوانات خانگی",
    "سایر"]

/-- Each name becomes a shared category unless it is one. A refused insert is passed over. -/
def seedCategories : List (String × Uuid) → CatalogRun Unit
  | [] => pure ()
  | (name, id) :: rest => do
    let existing ← Process.look fun w =>
      w.categories.find? fun r => r.name = name && r.userId = none
    match existing with
    | some _ => seedCategories rest
    | none => do
      .auto (fun _ => []) (fun _ w => id ∉ w.categories.map (·.id))
        (fun w => if taken w.categories ⟨id, none, name⟩ then []
          else [.insertCategory ⟨id, none, name⟩]) fun _ => seedCategories rest

def ensureInflationModuleReady (draw : String → Uuid) : CatalogRun Unit :=
  seedCategories (INFLATION_CATEGORY_SUGGESTIONS.map fun name => (name, draw name))

structure RecordInflationPriceInput where
  commodityId : Option Uuid
  itemName : Option String
  categoryId : Option Uuid
  newCategory : Option String
  unitPrice : Decimal
  unit : Option String
  recordedAt : Option (Option Nat)
  merchantName : Option String
  region : Option String
  notes : Option String

/-- The ids that are drawn for a new category, a new item and the record. -/
structure NewIds where
  category : Uuid
  item : Uuid
  record : Uuid

/-- `text?.trim() || undefined`. -/
def present (text : Option String) : Option String := (text.map trimmed).filter (· ≠ "")

/-- `unit?.trim().slice(0, 50)`, or nothing. -/
def inputUnit (input : RecordInflationPriceInput) : Option String :=
  (input.unit.map fun t => sliceTo 50 (trimmed t)).filter (· ≠ "")

def inputCategory (maxCategories : Option Int) (input : RecordInflationPriceInput)
    (owner : Option Uuid) (ids : NewIds) : CatalogRun (Except CatalogFailure (Option Uuid)) :=
  match present input.newCategory with
  | none => pure (.ok input.categoryId)
  | some newCategory => (createCategory maxCategories newCategory owner ids.category).andThen
      fun id => pure (.ok (some id))

/-- The item that was chosen, or the one of the name that was typed. -/
def inputItem (maxCategories : Option Int) (input : RecordInflationPriceInput)
    (owner : Option Uuid) (ids : NewIds) : CatalogRun Answer :=
  match input.commodityId with
  | some id => pure (.ok id)
  | none =>
    match checkName 200 .nameRequired .nameTooLong (input.itemName.getD "") with
    | .error e => pure (.error e)
    | .ok itemName => (inputCategory maxCategories input owner ids).andThen fun categoryId =>
      createCommodityItem itemName categoryId
        (some ((inputUnit input).getD INFLATION_DEFAULT_UNIT)) owner ids.item

/-- The observation as `recordPricePoint` takes it. -/
def inflationRecord (input : RecordInflationPriceInput) (commodityId : Uuid) (recordedAt : Nat) :
    PriceRecordData where
  commodityId := commodityId
  unitPrice := some input.unitPrice
  unit := inputUnit input
  quantity := some (some (Decimal.ofInt 1))
  totalAmount := none
  purchasedAt := some (some recordedAt)
  merchantName := present input.merchantName
  region := present input.region
  notes := present input.notes

/-- The record, and the item it is of. -/
def recordInflationPrice (maxCategories : Option Int) (input : RecordInflationPriceInput)
    (owner : Option Uuid) (ids : NewIds) : CatalogRun (Except CatalogFailure (Uuid × Uuid)) :=
  if input.unitPrice.raw ≤ 0 then pure (.error .priceNotPositive)
  else (inputItem maxCategories input owner ids).andThen fun commodityId => do
    let now ← Process.look (·.now)
    match input.recordedAt.getD (some now) with
    | none => pure (.error .dateNotValid)
    | some recordedAt =>
      (recordPricePoint (inflationRecord input commodityId recordedAt) owner ids.record).andThen
        fun id => pure (.ok (id, commodityId))

/-! ## The invariant -/

/-- A name as it is stored. -/
def ProperName (most : Nat) (name : String) : Prop :=
  name ≠ "" ∧ unitLength name ≤ most ∧ ∃ s, name = trimmed s

theorem trim_trim (s : Text) : trim (trim s) = trim s := by
  have hfront : (trim s).dropWhile isBlank = trim s := by
    rw [List.dropWhile_eq_self_iff]
    intro hlen
    have hprefix : trim s <+: s.dropWhile isBlank := List.rdropWhile_prefix isBlank _
    have hlen' : 0 < (s.dropWhile isBlank).length := lt_of_lt_of_le hlen hprefix.length_le
    have hhead := List.dropWhile_get_zero_not isBlank s hlen'
    have hsame := hprefix.getElem hlen
    grind
  rw [trim, hfront]
  exact List.rdropWhile_idempotent isBlank _

@[simp] theorem trimmed_trimmed (s : String) : trimmed (trimmed s) = trimmed s := by
  rw [trimmed, trimmed, String.toList_ofList, trim_trim]

theorem checkName_ok {required tooLong : CatalogFailure} {name n : String} {most : Nat}
    (h : checkName most required tooLong name = .ok n) :
    n = trimmed name ∧ ProperName most n := by
  unfold checkName at h
  split at h
  · cases h
  split at h
  · cases h
  rename_i hne hle
  obtain rfl := Except.ok.inj h
  refine ⟨rfl, fun hempty => hne ?_, not_lt.mp hle, name, rfl⟩
  simpa [trimmed] using congrArg String.toList hempty

theorem checkName_error {required tooLong e : CatalogFailure} {name : String} {most : Nat}
    (h : checkName most required tooLong name = .error e) : e = required ∨ e = tooLong := by
  unfold checkName at h
  split at h
  · exact .inl (Except.error.inj h).symm
  split at h
  · exact .inr (Except.error.inj h).symm
  · cases h

/-- Rows with ids of their own, and one name for each owner. -/
structure Table (most : Nat) (rows : List CatalogRow) : Prop where
  ids : (rows.map (·.id)).Nodup
  names : (rows.map fun r => (r.userId, r.name)).Nodup
  proper : ∀ r ∈ rows, ProperName most r.name

/-- What a record says of its item and its amounts. -/
structure PriceRecord.Proper (r : PriceRecord) (items : List CommodityItem) : Prop where
  item : ∃ i ∈ items, i.id = r.commodityId ∧ (i.userId = none ∨ i.userId = r.userId)
  unitPrice : 0 < r.unitPrice.raw
  quantity : 0 < r.quantity.raw
  total : 0 < r.totalAmount.raw ∨ r.totalAmount = r.unitPrice.mul r.quantity

structure Sound (w : CatalogWorld) : Prop where
  categories : Table 100 w.categories
  items : Table 200 w.itemRows
  category : ∀ i ∈ w.items, ∀ c, i.categoryId = some c →
    ∃ cat ∈ w.categories, cat.id = c ∧ (cat.userId = none ∨ cat.userId = i.userId)
  records : ∀ r ∈ w.records, r.Proper w.items

/-- Rows stay. -/
structure Grows (s t : CatalogWorld) : Prop where
  categories : s.categories ⊆ t.categories
  items : s.items ⊆ t.items
  records : s.records ⊆ t.records

theorem Grows.refl (s : CatalogWorld) : Grows s s :=
  ⟨List.Subset.refl _, List.Subset.refl _, List.Subset.refl _⟩

theorem Grows.trans {s t w : CatalogWorld} (h : Grows s t) (h' : Grows t w) : Grows s w :=
  ⟨List.Subset.trans h.categories h'.categories, List.Subset.trans h.items h'.items,
    List.Subset.trans h.records h'.records⟩

def catalogPromise : FencedPromise CatalogWorld Empty Drawn Empty where
  Assumes _ := True
  Inv := Sound
  Taken _ _ := False
  Rely _ _ := Grows
  refl _ _ := Grows.refl
  trans := Grows.trans
  mono _ h := h

variable {s t w : CatalogWorld} {o : Option Empty} {ws : List CatalogWrite} {ks : List Empty}
  {most : Nat} {rows : List CatalogRow} {row : CatalogRow} {name : String} {owner : Option Uuid}

theorem Grows.itemRows (h : Grows s t) : s.itemRows ⊆ t.itemRows := by
  intro r hr
  obtain ⟨i, hi, rfl⟩ := List.mem_map.mp hr
  exact List.mem_map_of_mem (h.items hi)

theorem commits {v : CatalogWrite} (h : Sound (v.apply s)) (hgrows : Grows s (v.apply s)) :
    catalogPromise.Commits o [v] ks s :=
  ⟨h, fun _ hi => hi, fun _ _ _ _ => hgrows⟩

theorem Table.insert (h : Table most rows) (hproper : ProperName most row.name)
    (hid : row.id ∉ rows.map (·.id)) (hname : taken rows row = false) :
    Table most (rows ++ [row]) where
  ids := by
    rw [List.map_append]
    exact List.concat_eq_append ▸ h.ids.concat hid
  names := by
    rw [List.map_append]
    refine List.concat_eq_append ▸ h.names.concat fun hmem => ?_
    obtain ⟨r, hr, heq⟩ := List.mem_map.mp hmem
    obtain ⟨huser, hname'⟩ := Prod.mk.inj heq
    simp only [taken, List.any_eq_false] at hname
    exact hname r hr (by simp [huser, hname'])
  proper r hr := by
    rcases List.mem_append.mp hr with hr | hr
    · exact h.proper r hr
    · exact List.mem_singleton.mp hr ▸ hproper

theorem findVisible_some {r : CatalogRow} (h : findVisible rows name owner = some r) :
    r ∈ rows ∧ r.name = name ∧ (r.userId = owner ∨ r.userId = none) := by
  have hfound := List.find?_some h
  simp only [visibleTo, Bool.and_eq_true, Bool.or_eq_true, decide_eq_true_eq] at hfound
  exact ⟨List.mem_of_find?_eq_some h, hfound⟩

/-- Where an insert was refused, the row that is in the way can be seen. -/
theorem findVisible_of_taken {rows' : List CatalogRow} (h : taken rows row = true)
    (hsub : rows ⊆ rows') : ∃ r, findVisible rows' row.name row.userId = some r := by
  obtain ⟨r, hr, hsame⟩ := List.any_eq_true.mp h
  simp only [Bool.and_eq_true, decide_eq_true_eq] at hsame
  rw [← Option.isSome_iff_exists, findVisible, List.find?_isSome]
  exact ⟨r, hsub hr, by simp [visibleTo, hsame.1, hsame.2]⟩

/-! ## Categories and items -/

/-- The answer names a row of that name, which the caller sees. -/
def Finds (rows : List CatalogRow) (name : String) (owner : Option Uuid) (id : Uuid) : Prop :=
  ∃ r ∈ rows, r.id = id ∧ r.name = name ∧ (r.userId = owner ∨ r.userId = none)

theorem Finds.subset {rows' : List CatalogRow} {id : Uuid} (h : Finds rows name owner id)
    (hsub : rows ⊆ rows') : Finds rows' name owner id := by
  obtain ⟨r, hr, hrest⟩ := h
  exact ⟨r, hsub hr, hrest⟩

theorem finds_of_findVisible {r : CatalogRow} (h : findVisible rows name owner = some r) :
    Finds rows name owner r.id :=
  ⟨r, (findVisible_some h).1, rfl, (findVisible_some h).2⟩

/-- A race is lost to a row that stays: there is always an answer. -/
theorem good_findOrCreate {rows : CatalogWorld → List CatalogRow} {insert : CatalogWrite}
    {failure : CatalogFailure} (hrows : ∀ {s t}, Grows s t → rows s ⊆ rows t)
    (hinsert : ∀ t, Sound t → Grows w t → row.id ∉ (rows t).map (·.id) →
      taken (rows t) row = false → Sound (insert.apply t) ∧ Grows t (insert.apply t) ∧
        row ∈ rows (insert.apply t)) :
    catalogPromise.Good
      (fun a _ _ _ v => ∃ id, a = .ok id ∧ Finds (rows v) row.name row.userId id)
      (findOrCreate rows insert row failure) o ws ks w := by
  refine .bind (.look fun t ht hwt t₁ ht₁ hr₁ => ?_)
  split
  · rename_i r hfound
    refine .pure fun v _ hv => ⟨r.id, rfl, ?_⟩
    exact (finds_of_findVisible hfound).subset (hrows (Grows.trans hr₁ hv))
  refine .bind fun t₂ ht₂ hr₂ hx => ?_
  have hwt₂ : Grows w t₂ := Grows.trans hwt (Grows.trans hr₁ hr₂)
  beta_reduce
  cases htaken : taken (rows t₂) row with
  | false =>
    obtain ⟨hsound, hgrows, hmem⟩ := hinsert t₂ ht₂ hwt₂ (hx .fresh trivial) htaken
    refine ⟨o, .inl rfl, commits hsound hgrows, fun t₃ _ hr₃ => .pure fun v _ hv => ?_⟩
    exact ⟨row.id, rfl, row, hrows (Grows.trans hr₃ hv) hmem, rfl, rfl, .inl rfl⟩
  | true =>
    refine ⟨o, .inl rfl, .nothing ht₂, fun t₃ _ hr₃ => .bind (.look fun t₄ _ hr₄ t₅ _ hr₅ => ?_)⟩
    obtain ⟨r, hretry⟩ := findVisible_of_taken htaken (hrows (Grows.trans hr₃ hr₄))
    rw [hretry]
    refine .pure fun v _ hv => ⟨r.id, rfl, ?_⟩
    exact (finds_of_findVisible hretry).subset (hrows (Grows.trans hr₅ hv))

/-- A category that is added keeps the invariant. -/
theorem Sound.insertCategory (h : Sound t) (hproper : ProperName 100 row.name)
    (hid : row.id ∉ t.categories.map (·.id)) (hname : taken t.categories row = false) :
    Sound ((CatalogWrite.insertCategory row).apply t) := by
  refine ⟨h.categories.insert hproper hid hname, h.items, fun i hi c hc => ?_, h.records⟩
  obtain ⟨cat, hcat, hrest⟩ := h.category i hi c hc
  exact ⟨cat, List.mem_append_left _ hcat, hrest⟩

theorem grows_insertCategory : Grows t ((CatalogWrite.insertCategory row).apply t) :=
  ⟨List.subset_append_left _ _, List.Subset.refl _, List.Subset.refl _⟩

/-- An insert that was refused is no answer. -/
def Expected (e : CatalogFailure) : Prop := e ≠ .categoryFailed ∧ e ≠ .itemFailed

theorem good_createCategory {maxCategories : Option Int} {id : Uuid} :
    catalogPromise.Good
      (fun a _ _ _ v => (∀ e, a = .error e → Expected e) ∧
        ∀ id, a = .ok id → Finds v.categories (trimmed name) owner id)
      (createCategory maxCategories name owner id) o ws ks w := by
  unfold createCategory
  split
  · rename_i e he
    refine .pure fun _ _ _ => ⟨?_, by simp⟩
    rintro _ ⟨⟩
    rcases checkName_error he with rfl | rfl <;> exact ⟨by simp, by simp⟩
  rename_i n hn
  obtain ⟨rfl, hproper⟩ := checkName_ok hn
  refine .bind (.look fun t _ _ t₁ _ _ => ?_)
  split
  · refine .pure fun _ _ _ => ⟨?_, by simp⟩
    rintro _ ⟨⟩
    exact ⟨by simp, by simp⟩
  refine (good_findOrCreate (·.categories) fun t ht _ hid hname => ?_).mono ?_
  · exact ⟨ht.insertCategory hproper hid hname, grows_insertCategory,
      List.mem_append_right _ (List.mem_singleton_self _)⟩
  · rintro _ _ _ _ v ⟨id', rfl, hfinds⟩
    exact ⟨by simp, fun _ hid => Except.ok.inj hid ▸ hfinds⟩

/-- The category may be used by the owner. -/
def Usable (owner : Option Uuid) (categoryId : Option Uuid) (w : CatalogWorld) : Prop :=
  ∀ c, categoryId = some c →
    ∃ cat ∈ w.categories, cat.id = c ∧ (cat.userId = none ∨ cat.userId = owner)

theorem Usable.grows {categoryId : Option Uuid} (h : Usable owner categoryId s)
    (hst : Grows s t) : Usable owner categoryId t := by
  intro c hc
  obtain ⟨cat, hcat, hrest⟩ := h c hc
  exact ⟨cat, hst.categories hcat, hrest⟩

theorem good_checkCategory {categoryId : Option Uuid} :
    catalogPromise.Good
      (fun a _ _ _ v => (∀ e, a = .error e → Expected e) ∧
        ∀ u, a = .ok u → Usable owner categoryId v)
      (checkCategory owner categoryId) o ws ks w := by
  unfold checkCategory
  split
  · exact .pure fun _ _ _ => ⟨by simp, fun _ _ c hc => by cases hc⟩
  rename_i c
  refine .bind (.look fun t _ _ t₁ _ hr => ?_)
  split
  · exact .pure fun _ _ _ => ⟨by simp [Expected], by simp⟩
  rename_i cat hfound
  split
  · exact .pure fun _ _ _ => ⟨by simp [Expected], by simp⟩
  rename_i hown
  refine .pure fun v _ hv => ⟨by simp, fun _ _ => Usable.grows (s := t) ?_ (Grows.trans hr hv)⟩
  rintro _ ⟨⟩
  refine ⟨cat, List.mem_of_find?_eq_some hfound, by simpa using List.find?_some hfound, ?_⟩
  cases huser : cat.userId with
  | none => exact .inl rfl
  | some u => exact .inr (by simpa [huser] using hown)

theorem good_createCommodityItem {categoryId : Option Uuid} {defaultUnit : Option String}
    {id : Uuid} :
    catalogPromise.Good
      (fun a _ _ _ v => (∀ e, a = .error e → Expected e) ∧
        ∀ id, a = .ok id → Finds v.itemRows (trimmed name) owner id)
      (createCommodityItem name categoryId defaultUnit owner id) o ws ks w := by
  unfold createCommodityItem
  split
  · rename_i e he
    refine .pure fun _ _ _ => ⟨?_, by simp⟩
    rintro _ ⟨⟩
    rcases checkName_error he with rfl | rfl <;> exact ⟨by simp, by simp⟩
  rename_i n hn
  obtain ⟨rfl, hproper⟩ := checkName_ok hn
  refine .bind (good_checkCategory.mono ?_)
  rintro (e | u) o₁ ws₁ ks₁ t₁ ⟨herror, hok⟩
  · exact .pure fun _ _ _ => ⟨fun _ h => Except.error.inj h ▸ herror e rfl, by simp⟩
  have husable : Usable owner categoryId t₁ := hok u rfl
  refine (good_findOrCreate Grows.itemRows fun t ht hwt hid hname => ?_).mono ?_
  · have hsound : Table 200 (t.itemRows ++ [⟨id, owner, trimmed name⟩]) :=
      ht.items.insert hproper hid hname
    refine ⟨⟨ht.categories, ?_, fun i hi c hc => ?_, fun r hr => ?_⟩,
      ⟨List.Subset.refl _, List.subset_append_left _ _, List.Subset.refl _⟩, ?_⟩
    · simpa [CatalogWorld.itemRows, CatalogWrite.apply] using hsound
    · rcases List.mem_append.mp hi with hi | hi
      · exact ht.category i hi c hc
      · obtain rfl := List.mem_singleton.mp hi
        exact husable.grows hwt c hc
    · obtain ⟨⟨i, hi, hrest⟩, hunitPrice, hquantity, htotal⟩ := ht.records r hr
      exact ⟨⟨i, List.mem_append_left _ hi, hrest⟩, hunitPrice, hquantity, htotal⟩
    · simp [CatalogWorld.itemRows, CatalogWrite.apply]
  · rintro _ _ _ _ v ⟨id', rfl, hfinds⟩
    exact ⟨by simp, fun _ hid => Except.ok.inj hid ▸ hfinds⟩

/-! ## Records -/

/-- What a record takes from the observation. -/
structure PriceRecord.Of (r : PriceRecord) (data : PriceRecordData) (owner : Option Uuid) :
    Prop where
  userId : r.userId = owner
  commodityId : r.commodityId = data.commodityId
  unitPrice : positiveAmount "unitPrice" data.unitPrice = .ok r.unitPrice
  quantity : positiveAmount "quantity" (data.quantity.getD (some (Decimal.ofInt 1))) =
    .ok r.quantity
  total : totalOf r.unitPrice r.quantity data.totalAmount = .ok r.totalAmount

theorem positiveAmount_ok {field : String} {amount : Option Decimal} {d : Decimal}
    (h : positiveAmount field amount = .ok d) : amount = some d ∧ 0 < d.raw := by
  unfold positiveAmount at h
  split at h
  · cases h
  · split at h
    · exact ⟨congrArg some (Except.ok.inj h), Except.ok.inj h ▸ ‹_›⟩
    · cases h

theorem positiveAmount_error {field : String} {amount : Option Decimal} {e : CatalogFailure}
    (h : positiveAmount field amount = .error e) : Expected e := by
  unfold positiveAmount at h
  split at h
  · exact Except.error.inj h ▸ ⟨by simp, by simp⟩
  · split at h
    · cases h
    · exact Except.error.inj h ▸ ⟨by simp, by simp⟩

theorem totalOf_ok {unitPrice quantity d : Decimal} {total : Option (Option Decimal)}
    (h : totalOf unitPrice quantity total = .ok d) :
    0 < d.raw ∨ d = unitPrice.mul quantity := by
  unfold totalOf at h
  split at h
  · exact .inl (positiveAmount_ok h).2
  · exact .inr (Except.ok.inj h).symm

theorem totalOf_error {unitPrice quantity : Decimal} {total : Option (Option Decimal)}
    {e : CatalogFailure} (h : totalOf unitPrice quantity total = .error e) : Expected e := by
  unfold totalOf at h
  split at h
  · exact positiveAmount_error h
  · cases h

/-- Either a field is wrong, or the row is of the observation. -/
theorem priceRecord_cases (data : PriceRecordData) (commodity : CommodityItem)
    (owner : Option Uuid) (now : Nat) (id : Uuid) :
    (∃ e, priceRecord data commodity owner now id = .error e ∧ Expected e) ∨
      ∃ r, priceRecord data commodity owner now id = .ok r ∧ r.id = id ∧ r.Of data owner := by
  unfold priceRecord
  cases hprice : positiveAmount "unitPrice" data.unitPrice with
  | error e => exact .inl ⟨e, rfl, positiveAmount_error hprice⟩
  | ok unitPrice =>
    cases hquantity : positiveAmount "quantity" (data.quantity.getD (some (Decimal.ofInt 1))) with
    | error e => exact .inl ⟨e, rfl, positiveAmount_error hquantity⟩
    | ok quantity =>
      cases htotal : totalOf unitPrice quantity data.totalAmount with
      | error e => exact .inl ⟨e, by simp [htotal, bind, Except.bind], totalOf_error htotal⟩
      | ok total =>
        cases htime : data.purchasedAt.getD (some now) with
        | none =>
          exact .inl ⟨.invalidDate, by simp [htotal, bind, Except.bind], by simp, by simp⟩
        | some time =>
          refine .inr ⟨_, by simp only [htotal, bind, Except.bind, Option.elim]; rfl, rfl, ?_⟩
          exact ⟨rfl, rfl, hprice, hquantity, htotal⟩

theorem PriceRecord.Of.proper {r : PriceRecord} {data : PriceRecordData}
    {items : List CommodityItem} (h : r.Of data owner)
    (hitem : ∃ i ∈ items, i.id = data.commodityId ∧ (i.userId = none ∨ i.userId = owner)) :
    r.Proper items where
  item := by rw [h.commodityId, h.userId]; exact hitem
  unitPrice := (positiveAmount_ok h.unitPrice).2
  quantity := (positiveAmount_ok h.quantity).2
  total := totalOf_ok h.total

/-- The answer names a record of the observation. -/
def Recorded (w : CatalogWorld) (data : PriceRecordData) (owner : Option Uuid) (id : Uuid) : Prop :=
  ∃ r ∈ w.records, r.id = id ∧ r.Of data owner

theorem good_recordPricePoint {data : PriceRecordData} {id : Uuid} :
    catalogPromise.Good
      (fun a _ _ _ v => (∀ e, a = .error e → Expected e) ∧
        ∀ id, a = .ok id → Recorded v data owner id)
      (recordPricePoint data owner id) o ws ks w := by
  refine .bind (.look fun t _ hwt t₁ _ hr₁ => ?_)
  split
  · exact .pure fun _ _ _ => by simp [Expected]
  rename_i commodity hfound
  refine .bind (.look fun t₂ _ hr₂ t₃ _ hr₃ => ?_)
  obtain ⟨e, he, hexpected⟩ | ⟨row, hrow, rfl, hof⟩ :=
    priceRecord_cases data commodity owner t₂.now id
  · rw [he]
    exact .pure fun _ _ _ => ⟨fun _ h => Except.error.inj h ▸ hexpected, by simp⟩
  rw [hrow]
  intro t₄ ht₄ hr₄ _
  have hgrows : Grows t t₄ := Grows.trans hr₁ (Grows.trans hr₂ (Grows.trans hr₃ hr₄))
  have hitem := List.find?_some hfound
  simp only [visibleTo, Bool.and_eq_true, Bool.or_eq_true, decide_eq_true_eq] at hitem
  have hproper : row.Proper t₄.items := hof.proper
    ⟨commodity, hgrows.items (List.mem_of_find?_eq_some hfound), hitem.1, hitem.2.symm⟩
  have hsound : Sound ((CatalogWrite.insertRecord row).apply t₄) := by
    refine ⟨ht₄.categories, ht₄.items, ht₄.category, fun r hr => ?_⟩
    rcases List.mem_append.mp hr with hr | hr
    · exact ht₄.records r hr
    · exact List.mem_singleton.mp hr ▸ hproper
  refine ⟨o, .inl rfl, commits hsound ⟨List.Subset.refl _, List.Subset.refl _,
    List.subset_append_left _ _⟩, fun v _ hv => ⟨by simp, ?_⟩⟩
  rintro _ ⟨⟩
  exact ⟨row, hv.records (List.mem_append_right _ (List.mem_singleton_self _)), rfl, hof⟩

/-! ## The tracker's calls -/

/-- A shared category of each name. -/
def Seeded (w : CatalogWorld) (names : List String) : Prop :=
  ∀ n ∈ names, ∃ r ∈ w.categories, r.name = n ∧ r.userId = none

theorem Seeded.grows {names : List String} (h : Seeded s names) (hst : Grows s t) :
    Seeded t names := by
  intro n hn
  obtain ⟨r, hr, hrest⟩ := h n hn
  exact ⟨r, hst.categories hr, hrest⟩

theorem good_seedCategories {seeds : List (String × Uuid)} {done : List String}
    (hproper : ∀ p ∈ seeds, ProperName 100 p.1) (hdone : Seeded w done) :
    catalogPromise.Good (fun _ _ _ _ v => Seeded v (done ++ seeds.map Prod.fst))
      (seedCategories seeds) o ws ks w := by
  induction seeds generalizing done o ws ks w with
  | nil => exact .pure fun v _ hv => by simpa using hdone.grows hv
  | cons p rest ih =>
    obtain ⟨name, id⟩ := p
    have hrest : ∀ p ∈ rest, ProperName 100 p.1 := fun p hp => hproper p (.tail _ hp)
    -- once the name is there, the rest follows
    have hgo : ∀ {t o ws ks}, Grows w t → (∃ r ∈ t.categories, r.name = name ∧ r.userId = none) →
        catalogPromise.Good
          (fun _ _ _ _ v => Seeded v (done ++ (name :: rest.map Prod.fst)))
          (seedCategories rest) o ws ks t := by
      intro t o ws ks hwt hr
      have hnext : Seeded t (done ++ [name]) := by
        intro n hn
        rcases List.mem_append.mp hn with hn | hn
        · exact hdone.grows hwt n hn
        · exact List.mem_singleton.mp hn ▸ hr
      simpa using ih hrest hnext
    refine .bind (.look fun t _ hwt t₁ _ hr₁ => ?_)
    split
    · rename_i r hfound
      have hsame := List.find?_some hfound
      simp only [Bool.and_eq_true, decide_eq_true_eq] at hsame
      exact hgo (Grows.trans hwt hr₁) ⟨r, hr₁.categories (List.mem_of_find?_eq_some hfound), hsame⟩
    intro t₂ ht₂ hr₂ hx
    have hwt₂ : Grows w t₂ := Grows.trans hwt (Grows.trans hr₁ hr₂)
    cases htaken : taken t₂.categories ⟨id, none, name⟩ with
    | false =>
      refine ⟨o, .inl rfl, ?_, ?_⟩
      · simp only [htaken]
        exact commits (ht₂.insertCategory (hproper _ (.head _)) (hx .fresh trivial) htaken)
          grows_insertCategory
      · simp only [htaken]
        exact hgo (Grows.trans hwt₂ grows_insertCategory)
          ⟨⟨id, none, name⟩, List.mem_append_right _ (List.mem_singleton_self _), rfl, rfl⟩
    | true =>
      refine ⟨o, .inl rfl, ?_, ?_⟩
      · simp only [htaken]
        exact .nothing ht₂
      · simp only [htaken]
        obtain ⟨r, hr, hsame⟩ := List.any_eq_true.mp htaken
        simp only [Bool.and_eq_true, decide_eq_true_eq] at hsame
        exact hgo hwt₂ ⟨r, hr, hsame.2, hsame.1⟩

theorem properName_suggestion {n : String} (h : n ∈ INFLATION_CATEGORY_SUGGESTIONS) :
    ProperName 100 n := by
  have hall : ∀ n ∈ INFLATION_CATEGORY_SUGGESTIONS,
      n.toList ≠ [] ∧ unitLength n ≤ 100 ∧ trim n.toList = n.toList := by decide
  obtain ⟨hne, hlen, htrim⟩ := hall n h
  exact ⟨fun hn => hne (by simp [hn]), hlen, n, by simp [trimmed, htrim]⟩

theorem good_ensureInflationModuleReady {draw : String → Uuid} :
    catalogPromise.Good (fun _ _ _ _ v => Seeded v INFLATION_CATEGORY_SUGGESTIONS)
      (ensureInflationModuleReady draw) o ws ks w := by
  have hgood : catalogPromise.Good
      (fun _ _ _ _ v => Seeded v ([] ++
        (INFLATION_CATEGORY_SUGGESTIONS.map fun name => (name, draw name)).map Prod.fst))
      (ensureInflationModuleReady draw) o ws ks w := by
    refine good_seedCategories (fun p hp => ?_) (by simp [Seeded])
    obtain ⟨n, hn, rfl⟩ := List.mem_map.mp hp
    exact properName_suggestion hn
  simpa [ensureInflationModuleReady, Function.comp_def] using hgood

theorem good_inputCategory {maxCategories : Option Int} {input : RecordInflationPriceInput}
    {ids : NewIds} :
    catalogPromise.Good (fun a _ _ _ _ => ∀ e, a = .error e → Expected e)
      (inputCategory maxCategories input owner ids) o ws ks w := by
  unfold inputCategory
  split
  · exact .pure fun _ _ _ => by simp
  refine .andThen_cases (good_createCategory.mono fun a _ _ _ _ ha => ⟨fun e he => ?_, ?_⟩)
  · exact .pure fun _ _ _ _ he' => Except.error.inj he' ▸ ha.1 e he
  · exact fun _ _ => .pure fun _ _ _ => by simp

/-- The item that was chosen, or one of the name that was typed. -/
def Meant (w : CatalogWorld) (input : RecordInflationPriceInput) (owner : Option Uuid)
    (commodityId : Uuid) : Prop :=
  input.commodityId = some commodityId ∨
    input.commodityId = none ∧
      Finds w.itemRows (trimmed (input.itemName.getD "")) owner commodityId

theorem Meant.grows {input : RecordInflationPriceInput} {commodityId : Uuid}
    (h : Meant s input owner commodityId) (hst : Grows s t) : Meant t input owner commodityId :=
  h.imp_right (And.imp_right (·.subset hst.itemRows))

theorem good_inputItem {maxCategories : Option Int} {input : RecordInflationPriceInput}
    {ids : NewIds} :
    catalogPromise.Good
      (fun a _ _ _ v => (∀ e, a = .error e → Expected e) ∧ ∀ c, a = .ok c → Meant v input owner c)
      (inputItem maxCategories input owner ids) o ws ks w := by
  unfold inputItem
  split
  · rename_i c hchosen
    exact .pure fun _ _ _ => ⟨by simp, fun _ hc => .inl (Except.ok.inj hc ▸ hchosen)⟩
  rename_i hnone
  split
  · rename_i e he
    refine .pure fun _ _ _ => ⟨?_, by simp⟩
    rintro _ ⟨⟩
    rcases checkName_error he with rfl | rfl <;> exact ⟨by simp, by simp⟩
  rename_i n hn
  obtain ⟨hsame, -⟩ := checkName_ok hn
  refine .andThen_cases (good_inputCategory.mono fun a _ _ _ _ ha => ⟨fun e he => ?_, ?_⟩)
  · exact .pure fun _ _ _ => ⟨fun _ he' => Except.error.inj he' ▸ ha e he, by simp⟩
  intro c _
  refine good_createCommodityItem.mono fun a _ _ _ v ha => ⟨ha.1, fun c hc => ?_⟩
  have hfinds := ha.2 c hc
  rw [hsame, trimmed_trimmed] at hfinds
  exact Or.inr ⟨hnone, hfinds⟩

/-- The record is of one unit of what was meant, at the price that was given. -/
def Tracked (w : CatalogWorld) (input : RecordInflationPriceInput) (owner : Option Uuid)
    (answer : Uuid × Uuid) : Prop :=
  Meant w input owner answer.2 ∧
    ∃ r ∈ w.records, r.id = answer.1 ∧ r.userId = owner ∧ r.commodityId = answer.2 ∧
      r.unitPrice = input.unitPrice ∧ r.quantity = Decimal.ofInt 1 ∧ r.totalAmount = r.unitPrice

/-- One unit costs its price. -/
theorem PriceRecord.Of.tracked {r : PriceRecord} {input : RecordInflationPriceInput}
    {commodityId : Uuid} {recordedAt : Nat}
    (h : r.Of (inflationRecord input commodityId recordedAt) owner) :
    r.unitPrice = input.unitPrice ∧ r.quantity = Decimal.ofInt 1 ∧
      r.totalAmount = r.unitPrice := by
  have hprice : input.unitPrice = r.unitPrice :=
    Option.some.inj (positiveAmount_ok h.unitPrice).1
  have hquantity : Decimal.ofInt 1 = r.quantity :=
    Option.some.inj (positiveAmount_ok h.quantity).1
  have htotal : r.unitPrice.mul r.quantity = r.totalAmount := Except.ok.inj h.total
  refine ⟨hprice.symm, hquantity.symm, ?_⟩
  rw [← htotal, ← hquantity, Decimal.mul_ofInt, one_zsmul]

theorem good_recordInflationPrice {maxCategories : Option Int}
    {input : RecordInflationPriceInput} {ids : NewIds} :
    catalogPromise.Good
      (fun a _ _ _ v => (∀ e, a = .error e → Expected e) ∧
        ∀ answer, a = .ok answer → Tracked v input owner answer)
      (recordInflationPrice maxCategories input owner ids) o ws ks w := by
  unfold recordInflationPrice
  split
  · exact .pure fun _ _ _ => by simp [Expected]
  refine .andThen_cases (good_inputItem.mono fun a _ _ _ t ha => ⟨fun e he => ?_, fun c hc => ?_⟩)
  · exact .pure fun _ _ _ => ⟨fun _ he' => Except.error.inj he' ▸ ha.1 e he, by simp⟩
  refine .bind (.look fun t₁ _ hr₁ t₂ _ hr₂ => ?_)
  split
  · exact .pure fun _ _ _ => by simp [Expected]
  refine .andThen_cases ((good_recordPricePoint.later fun hr => hr).mono fun a' _ _ _ u ha' =>
    ⟨fun e he => ?_, fun id hid => ?_⟩)
  · exact .pure fun _ _ _ => ⟨fun _ he' => Except.error.inj he' ▸ ha'.1.1 e he, by simp⟩
  obtain ⟨r, hr, rfl, hof⟩ := ha'.1.2 id hid
  have htu : Grows t u := Grows.trans hr₁ (Grows.trans hr₂ ha'.2)
  refine .pure fun v _ hv => ⟨by simp, ?_⟩
  rintro _ ⟨⟩
  exact ⟨(ha.2 c hc).grows (Grows.trans htu hv), r, hv.records hr, rfl, hof.userId,
    hof.commodityId, hof.tracked⟩

/-! ## Whole runs -/

inductive CatalogCall where
  | category (maxCategories : Option Int) (name : String) (owner : Option Uuid) (id : Uuid)
  | item (name : String) (categoryId : Option Uuid) (defaultUnit : Option String)
      (owner : Option Uuid) (id : Uuid)
  | price (data : PriceRecordData) (owner : Option Uuid) (id : Uuid)
  | inflation (maxCategories : Option Int) (input : RecordInflationPriceInput)
      (owner : Option Uuid) (ids : NewIds)
  | ready (draw : String → Uuid)

/-- A call that is over, and its answer. -/
inductive Outcome where
  | category (name : String) (owner : Option Uuid) (a : Answer)
  | item (name : String) (owner : Option Uuid) (a : Answer)
  | price (data : PriceRecordData) (owner : Option Uuid) (a : Answer)
  | inflation (input : RecordInflationPriceInput) (owner : Option Uuid)
      (a : Except CatalogFailure (Uuid × Uuid))
  | ready

def CatalogCall.program : CatalogCall → CatalogRun Outcome
  | .category maxCategories name owner id => do
    let a ← createCategory maxCategories name owner id
    pure (.category name owner a)
  | .item name categoryId defaultUnit owner id => do
    let a ← createCommodityItem name categoryId defaultUnit owner id
    pure (.item name owner a)
  | .price data owner id => do
    let a ← recordPricePoint data owner id
    pure (.price data owner a)
  | .inflation maxCategories input owner ids => do
    let a ← recordInflationPrice maxCategories input owner ids
    pure (.inflation input owner a)
  | .ready draw => do
    ensureInflationModuleReady draw
    pure .ready

/-- What an answer says. -/
def Told (w : CatalogWorld) : Outcome → Prop
  | .category name owner a => (∀ e, a = .error e → Expected e) ∧
      ∀ id, a = .ok id → Finds w.categories (trimmed name) owner id
  | .item name owner a => (∀ e, a = .error e → Expected e) ∧
      ∀ id, a = .ok id → Finds w.itemRows (trimmed name) owner id
  | .price data owner a => (∀ e, a = .error e → Expected e) ∧
      ∀ id, a = .ok id → Recorded w data owner id
  | .inflation input owner a => (∀ e, a = .error e → Expected e) ∧
      ∀ answer, a = .ok answer → Tracked w input owner answer
  | .ready => Seeded w INFLATION_CATEGORY_SUGGESTIONS

theorem Told.grows (outcome : Outcome) (h : Told s outcome) (hst : Grows s t) :
    Told t outcome := by
  cases outcome with
  | category name owner a => exact ⟨h.1, fun id hid => (h.2 id hid).subset hst.categories⟩
  | item name owner a => exact ⟨h.1, fun id hid => (h.2 id hid).subset hst.itemRows⟩
  | price data owner a =>
    refine ⟨h.1, fun id hid => ?_⟩
    obtain ⟨r, hr, hrest⟩ := h.2 id hid
    exact ⟨r, hst.records hr, hrest⟩
  | inflation input owner a =>
    refine ⟨h.1, fun answer hanswer => ?_⟩
    obtain ⟨hmeant, r, hr, hrest⟩ := h.2 answer hanswer
    exact ⟨hmeant.grows hst, r, hst.records hr, hrest⟩
  | ready => exact Seeded.grows h hst

theorem good_program (call : CatalogCall) :
    catalogPromise.Good (fun a _ _ _ v => Told v a) call.program o ws ks w := by
  cases call with
  | category maxCategories name owner id =>
    exact .bind (good_createCategory.mono fun _ _ _ _ _ ha =>
      .pure fun _ _ hv => Told.grows (.category name owner _) ha hv)
  | item name categoryId defaultUnit owner id =>
    exact .bind (good_createCommodityItem.mono fun _ _ _ _ _ ha =>
      .pure fun _ _ hv => Told.grows (.item name owner _) ha hv)
  | price data owner id =>
    exact .bind (good_recordPricePoint.mono fun _ _ _ _ _ ha =>
      .pure fun _ _ hv => Told.grows (.price data owner _) ha hv)
  | inflation maxCategories input owner ids =>
    exact .bind (good_recordInflationPrice.mono fun _ _ _ _ _ ha =>
      .pure fun _ _ hv => Told.grows (.inflation input owner _) ha hv)
  | ready draw =>
    exact .bind (good_ensureInflationModuleReady.mono fun _ _ _ _ _ ha =>
      .pure fun _ _ hv => Told.grows .ready ha hv)

/-- The clock goes on. -/
def BesideCatalog (s t : CatalogWorld) : Prop := ∃ now, t = { s with now }

def CatalogReaches (w : CatalogWorld)
    (c : World CatalogWorld CatalogWrite Empty Drawn Outcome) : Prop :=
  World.Reaches (fun p => ∃ call : CatalogCall, p = call.program) BesideCatalog (fun _ => True) w c

theorem empty_sound : Sound {} where
  categories := ⟨List.nodup_nil, List.nodup_nil, fun _ h => by cases h⟩
  items := ⟨List.nodup_nil, List.nodup_nil, fun _ h => by cases h⟩
  category _ h := by cases h
  records _ h := by cases h

end PriceCatalog

end Pwos

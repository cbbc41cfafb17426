import Pwos.Actions.CashLegs
import Pwos.Actions.PostTransaction
import Pwos.Ledger.Journal

/-!
# Entries in native units

A line keeps the conventions of the ledger when it is in the account's own asset and its base
value is the quantity at the unit's price. POST books the amount as the base value, and the
asset the client names, so its entries keep them exactly for the requests `ApiPost.Native`
describes (`post_native_iff`).
-/

namespace Pwos

/-- The denomination of an account. -/
def Db.ownAsset (accountId : Uuid) (db : Db) : Option Uuid :=
  (db.findAccount accountId).bind (·.assetId)

def Db.UnitIs (userId a : Uuid) (unit : Decimal) (db : Db) : Prop :=
  (nativeUnitPriceUsd a (some userId)).answer db = .ok unit

/-- The line is in the unit of its account, at the price of that unit, and on the account the
request names first it is the amount. -/
structure NativeLine (userId primary : Uuid) (amount : Decimal) (db : Db) (p : Posting) :
    Prop where
  asset : db.ownAsset p.accountId = some p.assetId
  value : ∃ unit, db.UnitIs userId p.assetId unit ∧ p.baseValue = p.quantity.mul unit
  quantity : p.accountId = primary → p.quantity.abs = amount

/-! ## The entry of a request -/

namespace ApiPost

/-- What the request makes of itself: a flow, a transfer or a conversion. -/
inductive Books (post : ApiPost) (a : Uuid) (db : Db) : PostEntryInput → Prop where
  | flow (type : EntryType) {sign : Int} (hsign : sign = 1 ∨ sign = -1)
      (hflow : post.type ≠ "transfer") : Books post a db ((post.flowCmd a).input type sign)
  | transfer (htype : post.type = "transfer") (hdest : db.ownAsset post.counterAccountId = some a) :
      Books post a db (post.transferCmd a).input
  | convert (htype : post.type = "transfer") {dest : Uuid} (hne : dest ≠ a)
      (hown : db.ownAsset post.primaryAccountId = some a)
      (hdest : db.ownAsset post.counterAccountId = some dest) {snap : FxSnapshot}
      (hrate : (getLatestUsdIrtRateForUser (some post.userId)).answer db = .ok snap)
      {legs : FxLegs} (hlegs : resolveFxBookLegs (post.legsInput (db.symbolOf a) (db.symbolOf dest)
        snap.rate) = .ok legs) : Books post a db (post.fxCmd a dest snap.rate legs).input

/-- The asset the request is about. -/
def chosenAsset (post : ApiPost) (db : Db) : Option Uuid :=
  post.assetId.or (db.ownAsset post.primaryAccountId)

end ApiPost

section Inversion
variable {env : Env} {req : ApiRequest} {post : ApiPost} {db db' : Db} {r : PostResult}

theorem accountAsset_ok {accountId a : Uuid} (h : (accountAsset accountId).run db = .ok (a, db')) :
    db.ownAsset accountId = some a ∧ db' = db := by
  unfold accountAsset accountAssetId at h
  rw [Tx.run_read_bind] at h
  split at h <;> cases h
  exact ⟨‹_›, rfl⟩

theorem ApiPost.asset_ok {a : Uuid} (h : post.asset.run db = .ok (a, db')) :
    post.chosenAsset db = some a ∧ db' = db := by
  unfold ApiPost.asset at h
  unfold ApiPost.chosenAsset
  split at h
  · rename_i b hb
    cases h
    rw [hb]
    exact ⟨rfl, rfl⟩
  · rename_i hnone
    rw [hnone]
    exact accountAsset_ok h

/-- A conversion is between the units of its two accounts. -/
theorem fxCheck_ok {cmd : FxCmd} (h : cmd.check.run db = .ok ((), db')) :
    db.ownAsset cmd.fromAccountId = some cmd.fromAssetId := by
  unfold FxCmd.check accountAssetId at h
  rw [Tx.run_require_bind] at h
  split at h
  swap
  · cases h
  rw [Tx.run_read_bind, Tx.run_read_bind, Tx.run_require_bind] at h
  split at h
  swap
  · cases h
  rename_i hown
  exact hown.1

theorem ApiPost.convert_ok {a dest : Uuid} (htype : post.type = "transfer") (hne : dest ≠ a)
    (hdest : db.ownAsset post.counterAccountId = some dest)
    (h : (post.convert env a dest).run db = .ok (r, db')) :
    ∃ input, post.Books a db input ∧ (postEntry env input).run db = .ok (r, db') := by
  obtain ⟨snap, db₁, hsnap, k₁⟩ := Tx.run_bind_ok.mp h
  obtain ⟨hrate, hsame⟩ := (readOnly_getLatestUsdIrtRateForUser _).run_ok.mp hsnap
  rw [hsame, Tx.run_require_bind] at k₁
  split at k₁
  swap
  · cases k₁
  rw [Tx.run_read_bind, Tx.run_read_bind] at k₁
  obtain ⟨legs, db₂, hlegs, k₂⟩ := Tx.run_bind_ok.mp k₁
  obtain ⟨hlegs, hsame₂⟩ := Tx.run_ofExcept_ok.mp hlegs
  rw [hsame₂] at k₂
  obtain ⟨_, db₃, hcheck, k₃⟩ := Tx.run_bind_ok.mp k₂
  rw [(readOnly_fxCheck _).run_state hcheck] at k₃
  exact ⟨_, .convert htype hne (fxCheck_ok hcheck) hdest hrate hlegs, k₃⟩

theorem ApiPost.transfer_ok {a : Uuid} (htype : post.type = "transfer")
    (h : (post.transfer env a).run db = .ok (r, db')) :
    ∃ input, post.Books a db input ∧ (postEntry env input).run db = .ok (r, db') := by
  obtain ⟨dest, db₁, hdest, k₁⟩ := Tx.run_bind_ok.mp h
  obtain ⟨hdest, hsame⟩ := accountAsset_ok hdest
  rw [hsame] at k₁
  split at k₁
  · exact ApiPost.convert_ok htype ‹_› hdest k₁
  · rename_i hne
    obtain rfl := not_ne_iff.mp hne
    obtain ⟨_, k₂⟩ := (readOnly_transferCheck _).run_bind_ok k₁
    exact ⟨_, .transfer htype hdest, k₂⟩

theorem postTransaction_ok (h : (postTransaction env req).run db = .ok (r, db')) :
    ∃ post a input, req.validate = .ok post ∧ post.chosenAsset db = some a ∧
      post.Books a db input ∧ (postEntry env input).run db = .ok (r, db') := by
  obtain ⟨post, db₁, hpost, k₁⟩ := Tx.run_bind_ok.mp h
  obtain ⟨hpost, hsame⟩ := Tx.run_ofExcept_ok.mp hpost
  rw [hsame] at k₁
  obtain ⟨_, k₂⟩ := (readOnly_validateAccountOwnership _ _).run_bind_ok k₁
  obtain ⟨_, k₃⟩ := (readOnly_validateAccountOwnership _ _).run_bind_ok k₂
  obtain ⟨a, db₂, hasset, k₄⟩ := Tx.run_bind_ok.mp k₃
  obtain ⟨hasset, hsame₂⟩ := ApiPost.asset_ok hasset
  rw [hsame₂] at k₄
  have hbooks : ∃ input, post.Books a db input ∧ (postEntry env input).run db = .ok (r, db') := by
    split at k₄
    · rename_i htype
      exact ⟨_, .flow .income (.inl rfl) (by rw [htype]; decide), k₄⟩
    split at k₄
    · rename_i htype
      exact ⟨_, .flow .expense (.inr rfl) (by rw [htype]; decide), k₄⟩
    split at k₄
    · exact ApiPost.transfer_ok ‹_› k₄
    · cases k₄
  obtain ⟨input, hinput, hrun⟩ := hbooks
  exact ⟨post, a, input, hpost, hasset, hinput, hrun⟩

theorem validateAmount_pos {field : AmountField} {label : String} {value : Decimal}
    (h : validateAmount field label = .ok value) : 0 < value := by
  unfold validateAmount at h
  split at h
  · cases h
  · cases h
  · cases h
  · split at h <;> cases h
    exact not_le.mp ‹_›

theorem validate_pos (h : req.validate = .ok post) : 0 < post.value := by
  unfold ApiRequest.validate at h
  split at h
  · cases h
  split at h
  · cases h
  split at h
  · split at h
    · cases h
    · cases hvalue : validateAmount (req.amount.orElse req.quantity) "مبلغ تراکنش" with
      | error e =>
        rw [hvalue] at h
        cases h
      | ok value =>
        rw [hvalue] at h
        cases h
        exact validateAmount_pos hvalue
  · cases h

end Inversion

/-! ## Which requests keep the conventions -/

/-- The asset is the unit of both accounts, and the amount is worth itself in dollars. -/
structure OneDollarUnit (post : ApiPost) (a : Uuid) (db : Db) : Prop where
  primary : db.ownAsset post.primaryAccountId = some a
  counter : db.ownAsset post.counterAccountId = some a
  worth : ∃ unit, db.UnitIs post.userId a unit ∧ post.value.mul unit = post.value

/-- The paying account pays the amount, and each side is worth the book value. -/
structure FairLegs (post : ApiPost) (a dest : Uuid) (db : Db) (legs : FxLegs) : Prop where
  amount : legs.fromQuantity = post.value
  paid : ∃ unit, db.UnitIs post.userId a unit ∧ legs.bookValue = legs.fromQuantity.mul unit
  received : ∃ unit, db.UnitIs post.userId dest unit ∧ legs.bookValue = legs.toQuantity.mul unit

/-- The legs that a conversion of the request would have. -/
def ApiPost.legs (post : ApiPost) (a dest : Uuid) (db : Db) : Except AppError FxLegs := do
  let snap ← (getLatestUsdIrtRateForUser (some post.userId)).answer db
  resolveFxBookLegs (post.legsInput (db.symbolOf a) (db.symbolOf dest) snap.rate)

/-- A transfer to another unit has fair legs; anything else is in one unit worth a dollar. -/
def ApiPost.Native (post : ApiPost) (db : Db) : Prop :=
  ∃ a, post.chosenAsset db = some a ∧
    if post.type = "transfer" ∧ db.ownAsset post.counterAccountId ≠ some a then
      ∃ dest legs, db.ownAsset post.counterAccountId = some dest ∧
        post.legs a dest db = .ok legs ∧ FairLegs post a dest db legs
    else OneDollarUnit post a db

section Lines
variable {userId primary a x i : Uuid} {amount q b : Decimal} {memo : Option String} {db : Db}
  {post : ApiPost} {input : PostEntryInput}

/-- The sign of a line plays no part. -/
theorem nativeLine_iff {sign : Int} (hsign : sign = 1 ∨ sign = -1) :
    NativeLine userId primary amount db ⟨i, x, a, sign • q, sign • b, memo⟩ ↔
      db.ownAsset x = some a ∧ (∃ unit, db.UnitIs userId a unit ∧ b = q.mul unit) ∧
        (x = primary → q.abs = amount) := by
  have hmul : ∀ unit : Decimal, sign • b = (sign • q).mul unit ↔ b = q.mul unit := by
    intro unit
    rcases hsign with rfl | rfl
    · simp
    · simp [Decimal.neg_mul]
  have habs : (sign • q).abs = q.abs := by
    rcases hsign with rfl | rfl
    · simp
    · simp [Decimal.abs_neg]
  constructor
  · rintro ⟨hasset, ⟨unit, hunit, hvalue⟩, hquantity⟩
    exact ⟨hasset, ⟨unit, hunit, (hmul unit).mp hvalue⟩, fun hx => habs ▸ hquantity hx⟩
  · rintro ⟨hasset, ⟨unit, hunit, hvalue⟩, hquantity⟩
    exact ⟨hasset, ⟨unit, hunit, (hmul unit).mpr hvalue⟩, fun hx => habs.trans (hquantity hx)⟩

theorem nativeLine_in_iff :
    NativeLine userId primary amount db ⟨i, x, a, q, b, memo⟩ ↔
      db.ownAsset x = some a ∧ (∃ unit, db.UnitIs userId a unit ∧ b = q.mul unit) ∧
        (x = primary → q.abs = amount) := by
  simpa using nativeLine_iff (q := q) (b := b) (.inl rfl)

theorem nativeLine_out_iff :
    NativeLine userId primary amount db ⟨i, x, a, -q, -b, memo⟩ ↔
      db.ownAsset x = some a ∧ (∃ unit, db.UnitIs userId a unit ∧ b = q.mul unit) ∧
        (x = primary → q.abs = amount) := by
  simpa using nativeLine_iff (q := q) (b := b) (.inr rfl)

theorem flow_lines (post : ApiPost) (a : Uuid) (type : EntryType) (sign : Int) :
    ((post.flowCmd a).input type sign).postings.map (DraftPosting.row i) = [
      ⟨i, post.primaryAccountId, a, sign • post.value, sign • post.value, none⟩,
      ⟨i, post.counterAccountId, a, -sign • post.value, -sign • post.value, none⟩] := rfl

theorem transfer_lines (post : ApiPost) (a : Uuid) :
    (post.transferCmd a).input.postings.map (DraftPosting.row i) = [
      ⟨i, post.primaryAccountId, a, -post.value, -post.value, none⟩,
      ⟨i, post.counterAccountId, a, post.value, post.value, none⟩] := by
  have hfee : (0 : Decimal).div (.ofInt 1) = 0 := by decide
  have hvalue : post.value.mul (.ofInt 1) = post.value := by rw [Decimal.mul_ofInt, one_zsmul]
  simp [ApiPost.transferCmd, TransferCmd.input, TransferCmd.fromLine, TransferCmd.toLine,
    TransferCmd.feeLines, TransferCmd.feeQuantity, TransferCmd.value, DraftPosting.row, hfee, hvalue]

theorem convert_lines (post : ApiPost) (a dest : Uuid) (rate : Decimal) (legs : FxLegs) :
    (post.fxCmd a dest rate legs).input.postings.map (DraftPosting.row i) = [
      ⟨i, post.primaryAccountId, a, -legs.fromQuantity, -legs.bookValue,
        some "خروج واحد بومی (تبدیل ارز)"⟩,
      ⟨i, post.counterAccountId, dest, legs.toQuantity, legs.bookValue,
        some "ورود واحد بومی (تبدیل ارز)"⟩] := by
  simp [ApiPost.fxCmd, FxCmd.input, FxCmd.fromLine, FxCmd.toLine, FxCmd.feeLines, FxCmd.paidBy,
    DraftPosting.row]

/-- Both lines carry the amount as quantity and as value. -/
theorem oneDollarUnit_iff (hpos : 0 < post.value) {sign : Int} (hsign : sign = 1 ∨ sign = -1) :
    (∀ p ∈ [(⟨i, post.primaryAccountId, a, sign • post.value, sign • post.value, none⟩ : Posting),
        ⟨i, post.counterAccountId, a, -sign • post.value, -sign • post.value, none⟩],
      NativeLine post.userId post.primaryAccountId post.value db p) ↔ OneDollarUnit post a db := by
  have hneg : -sign = 1 ∨ -sign = -1 := by omega
  have habs : post.value.abs = post.value := if_neg (not_lt.mpr (Decimal.le_iff.mp hpos.le))
  simp only [List.forall_mem_cons, List.not_mem_nil, false_implies, implies_true, and_true,
    nativeLine_iff hsign, nativeLine_iff hneg, habs, @eq_comm _ post.value (Decimal.mul _ _)]
  constructor
  · rintro ⟨⟨hprimary, hworth⟩, hcounter, -⟩
    exact ⟨hprimary, hcounter, hworth⟩
  · rintro ⟨hprimary, hcounter, hworth⟩
    exact ⟨⟨hprimary, hworth⟩, hcounter, hworth⟩

/-- The paying line carries the amount, and both carry the book value. -/
theorem fairLegs_iff {dest : Uuid} {legs : FxLegs} {memo' : Option String} (hne : dest ≠ a)
    (hown : db.ownAsset post.primaryAccountId = some a)
    (hdest : db.ownAsset post.counterAccountId = some dest) (hpos : 0 ≤ legs.fromQuantity) :
    (∀ p ∈ [(⟨i, post.primaryAccountId, a, -legs.fromQuantity, -legs.bookValue, memo⟩ : Posting),
        ⟨i, post.counterAccountId, dest, legs.toQuantity, legs.bookValue, memo'⟩],
      NativeLine post.userId post.primaryAccountId post.value db p) ↔
        FairLegs post a dest db legs := by
  have habs : legs.fromQuantity.abs = legs.fromQuantity :=
    if_neg (not_lt.mpr (Decimal.le_iff.mp hpos))
  have hother : post.counterAccountId ≠ post.primaryAccountId := by
    intro hsame
    rw [hsame, hown] at hdest
    exact hne (Option.some.inj hdest).symm
  simp only [List.forall_mem_cons, List.not_mem_nil, false_implies, implies_true, and_true]
  rw [nativeLine_out_iff, nativeLine_in_iff]
  simp only [habs, hown, hdest, hother, true_and, forall_true_left, false_implies, and_true]
  exact ⟨fun h => ⟨h.1.2, h.1.1, h.2⟩, fun h => ⟨⟨h.paid, h.amount⟩, h.received⟩⟩

theorem ApiPost.Books.native_iff (hpos : 0 < post.value) (hasset : post.chosenAsset db = some a)
    (h : post.Books a db input) :
    (∀ p ∈ input.postings.map (DraftPosting.row i),
      NativeLine post.userId post.primaryAccountId post.value db p) ↔ post.Native db := by
  have hnative : post.Native db ↔
      if post.type = "transfer" ∧ db.ownAsset post.counterAccountId ≠ some a then
        ∃ dest legs, db.ownAsset post.counterAccountId = some dest ∧
          post.legs a dest db = .ok legs ∧ FairLegs post a dest db legs
      else OneDollarUnit post a db := by
    constructor
    · rintro ⟨b, hb, h⟩
      obtain rfl := Option.some.inj (hasset.symm.trans hb)
      exact h
    · exact fun h => ⟨a, hasset, h⟩
  rw [hnative]
  cases h with
  | flow type hsign hflow =>
    rw [flow_lines, if_neg fun h => hflow h.1]
    exact oneDollarUnit_iff hpos hsign
  | transfer htype hdest =>
    rw [transfer_lines, if_neg fun h => h.2 hdest]
    simpa using oneDollarUnit_iff hpos (.inr rfl)
  | @convert htype dest hne hown hdest snap hrate legs hlegs =>
    have hsame : post.legs a dest db = .ok legs := by
      unfold ApiPost.legs
      rw [hrate]
      exact hlegs
    have hconverts : db.ownAsset post.counterAccountId ≠ some a := by
      rw [hdest]
      exact fun h => hne (Option.some.inj h)
    rw [convert_lines, if_pos ⟨htype, hconverts⟩,
      fairLegs_iff hne hown hdest (resolveFxBookLegs_nonneg hlegs)]
    constructor
    · exact fun h => ⟨dest, legs, hdest, hsame, h⟩
    · rintro ⟨dest', legs', hdest', hlegs', h⟩
      obtain rfl := Option.some.inj (hdest.symm.trans hdest')
      obtain rfl := Except.ok.inj (hsame.symm.trans hlegs')
      exact h

end Lines

/-- The entry of an accepted request keeps the conventions exactly if the request is of one
unit that is worth a dollar, or a conversion with fair legs. -/
theorem post_native_iff {env : Env} {req : ApiRequest} {db db' : Db} (hi : LedgerInv db)
    (h : (postTransaction env req).run db = .ok (⟨env.entryId, false⟩, db')) :
    ∃ post, req.validate = .ok post ∧
      ((∀ p ∈ db'.postingsOf env.entryId,
        NativeLine post.userId post.primaryAccountId post.value db p) ↔ post.Native db) := by
  obtain ⟨post, a, input, hpost, hasset, hbooks, hrun⟩ := postTransaction_ok h
  refine ⟨post, hpost, ?_⟩
  rcases postEntryPriced_ok hi.lotIds hrun with ⟨hreplay, -⟩ | ⟨-, userId, hp⟩
  · obtain ⟨_, _, _, -, -, -, hr, -⟩ := hreplay
    exact nomatch congrArg PostResult.idempotentReplay hr
  · have hlines : db'.postingsOf env.entryId =
        input.postings.map (DraftPosting.row env.entryId) := by
      rw [hp.written.result]
      exact recorded_postingsOf_new hi.toWellFormed (hp.recordable hi.lotIds)
    rw [hlines]
    exact hbooks.native_iff (validate_pos hpost) hasset

section Examples

/-- An income onto an account, from the account of incomes. -/
def demoApiIncome (accountId : Uuid) (amount : Int) : ApiRequest :=
  { user := some 1, type := "income", entryDate := some 1, description := "حقوق"
    primaryAccountId := some accountId, counterAccountId := some 13
    amount := .number (.ofInt amount) }

/-- Five dollars onto a dollar account. -/
theorem dollars_native : ∃ post, (demoApiIncome 10 5).validate = .ok post ∧
    ((∀ p ∈ ((postTransaction { entryId := 1 } (demoApiIncome 10 5)).exec demoRated).postingsOf 1,
      NativeLine post.userId post.primaryAccountId post.value demoRated p) ↔
        post.Native demoRated) :=
  @post_native_iff { entryId := 1 } _ _ _ demoRated_empty.inv rfl

/-- A million Toman are booked as a million dollars. -/
theorem toman_booked_as_dollars :
    (postTransaction { entryId := 1 } (demoApiIncome 11 1000000)).refusal demoRated = none ∧
      ¬ ∀ p ∈ ((postTransaction { entryId := 1 } (demoApiIncome 11 1000000)).exec
          demoRated).postingsOf 1, NativeLine 1 11 (.ofInt 1000000) demoRated p := by
  refine ⟨by decide, fun h => ?_⟩
  obtain ⟨-, ⟨unit, hunit, hvalue⟩, -⟩ :=
    h ⟨1, 11, 2, .ofInt 1000000, .ofInt 1000000, none⟩ (by decide)
  have hprice : demoRated.UnitIs 1 2 ((Decimal.ofInt 1).div (.ofInt 150000)) := rfl
  obtain rfl := Except.ok.inj (hunit.symm.trans hprice)
  exact absurd hvalue (by decide)

end Examples

end Pwos
